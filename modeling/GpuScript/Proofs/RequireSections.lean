import GpuScript.Proofs.RequireGrammar
import GpuScript.Proofs.ShaderSections

/-!
# Require sections

What a script of a single require section is loaded to. Of several lines that give the same thing
the last one counts, wherever it stands among other lines: a late depth buffer takes on the size
given before, and a late size reaches the buffers that are there. The names of requirements are kept
in order in the lists that they belong to. So the order matters among lines of one kind only.
-/

namespace GpuScript

/-- What lines of a require section are about. -/
inductive RequireTopic
  | framebuffer
  | depthStencil
  | framebufferSize
  | fenceTimeout
  | requirement (kind : RequirementKind)
  deriving DecidableEq

namespace RequireLine

def topic : RequireLine → RequireTopic
  | .framebuffer _ => .framebuffer
  | .depthStencil _ => .depthStencil
  | .framebufferSize .. => .framebufferSize
  | .fenceTimeout _ => .fenceTimeout
  | .requirement kind _ => .requirement kind

def framebuffer? : RequireLine → Option Format
  | .framebuffer format => some format
  | _ => none

def depthStencil? : RequireLine → Option Format
  | .depthStencil format => some format
  | _ => none

def framebufferSize? : RequireLine → Option (Nat × Nat)
  | .framebufferSize width height => some (width, height)
  | _ => none

def fenceTimeout? : RequireLine → Option Nat
  | .fenceTimeout timeout => some timeout
  | _ => none

def name? : RequireLine → Option String
  | .requirement _ name => some name
  | _ => none

def nameOf? (kind : RequirementKind) : RequireLine → Option String
  | .requirement found name => if found = kind then some name else none
  | _ => none

/-- Whether the line takes the name of a requirement for what it is. -/
def IsWellNamed : RequireLine → Prop
  | .requirement kind name => RequirementKind.ofName? name = some kind
  | _ => True

end RequireLine

/-- The required names that belong to a kind. -/
def requiredNames (kind : RequirementKind) (asked : List RequireLine) : List String :=
  (asked.filterMap RequireLine.name?).filter fun name => RequirementKind.ofName? name = some kind

/-- A buffer of the framebuffer without elements. -/
def frameBuffer (kind : BufferKind) (format : Format) (size : Nat × Nat) : Buffer :=
  { Buffer.ofFormat kind format with width := size.1, height := size.2 }

/-- What the lines of a require section settle. -/
structure RequiredSetup where
  color : Format
  depth? : Option Format := none
  size : Nat × Nat
  requirements : Requirements := {}
  fenceTimeout : Option Nat := none

namespace RequiredSetup

variable (setup : RequiredSetup)

def start (settings : Settings) (format : Format) : RequiredSetup :=
  { color := format, size := (settings.width, settings.height) }

def buffers : List Buffer :=
  frameBuffer .color setup.color setup.size ::
    (setup.depth?.map (frameBuffer .depth · setup.size)).toList

def script : Script :=
  { buffers := setup.buffers
    requirements := setup.requirements
    fenceTimeout := setup.fenceTimeout }

def after (line : RequireLine) : RequiredSetup where
  color := line.framebuffer?.getD setup.color
  depth? := line.depthStencil?.or setup.depth?
  size := line.framebufferSize?.getD setup.size
  requirements :=
    match line with
    | .requirement kind name => setup.requirements.insert kind name
    | _ => setup.requirements
  fenceTimeout := line.fenceTimeout?.or setup.fenceTimeout

/-- What is settled when the last line of each kind counts and every name is kept. -/
def withLines (asked : List RequireLine) : RequiredSetup where
  color := (asked.filterMap RequireLine.framebuffer?).getLast?.getD setup.color
  depth? := (asked.filterMap RequireLine.depthStencil?).getLast?.or setup.depth?
  size := (asked.filterMap RequireLine.framebufferSize?).getLast?.getD setup.size
  requirements :=
    { features := setup.requirements.features ++ requiredNames .feature asked
      deviceExtensions :=
        setup.requirements.deviceExtensions ++ requiredNames .deviceExtension asked
      instanceExtensions :=
        setup.requirements.instanceExtensions ++ requiredNames .instanceExtension asked }
  fenceTimeout := (asked.filterMap RequireLine.fenceTimeout?).getLast?.or setup.fenceTimeout

end RequiredSetup

section Last

variable {α β : Type} (f : α → Option β) (a : α) (rest : List α)

theorem getLast?_filterMap_cons_getD (b : β) :
    ((a :: rest).filterMap f).getLast?.getD b =
      (rest.filterMap f).getLast?.getD ((f a).getD b) := by
  cases h : f a with
  | none => rw [List.filterMap_cons_none h, Option.getD_none]
  | some c =>
    rw [List.filterMap_cons_some h, List.getLast?_cons, Option.getD_some, Option.getD_some]

theorem getLast?_filterMap_cons_or (o : Option β) :
    ((a :: rest).filterMap f).getLast?.or o = (rest.filterMap f).getLast?.or ((f a).or o) := by
  cases h : f a with
  | none => rw [List.filterMap_cons_none h, Option.none_or]
  | some c =>
    rw [List.filterMap_cons_some h, List.getLast?_cons]
    cases (rest.filterMap f).getLast? <;> rfl

end Last

theorem requiredNames_cons (kind : RequirementKind) {line : RequireLine} (h : line.IsWellNamed)
    (rest : List RequireLine) :
    requiredNames kind (line :: rest) = (line.nameOf? kind).toList ++ requiredNames kind rest := by
  cases line with
  | requirement found name =>
    have hfound : RequirementKind.ofName? name = some found := h
    have hcons : requiredNames kind (.requirement found name :: rest) =
        (name :: rest.filterMap RequireLine.name?).filter fun name =>
          RequirementKind.ofName? name = some kind := rfl
    rw [hcons, List.filter_cons, hfound, RequireLine.nameOf?]
    by_cases hkind : found = kind
    · rw [if_pos hkind, if_pos (by rw [hkind]; exact decide_eq_true rfl)]
      rfl
    · rw [if_neg hkind, if_neg fun h => hkind (Option.some.inj (of_decide_eq_true h))]
      rfl
  | _ => rfl

theorem requiredNames_eq (kind : RequirementKind) {asked : List RequireLine}
    (h : ∀ line ∈ asked, line.IsWellNamed) :
    requiredNames kind asked = asked.filterMap (RequireLine.nameOf? kind) := by
  induction asked with
  | nil => rfl
  | cons line rest ih =>
    obtain ⟨hline, hrest⟩ := List.forall_mem_cons.1 h
    rw [requiredNames_cons kind hline, ih hrest, List.filterMap_cons]
    cases line.nameOf? kind <;> rfl

namespace RequiredSetup

theorem withLines_cons {line : RequireLine} (h : line.IsWellNamed) (setup : RequiredSetup)
    (rest : List RequireLine) :
    setup.withLines (line :: rest) = (setup.after line).withLines rest := by
  simp only [withLines, after, getLast?_filterMap_cons_getD, getLast?_filterMap_cons_or,
    requiredNames_cons _ h]
  cases line with
  | requirement kind name => cases kind <;> simp [Requirements.insert, RequireLine.nameOf?]
  | _ => rfl

theorem foldl_after {asked : List RequireLine} (h : ∀ line ∈ asked, line.IsWellNamed)
    (setup : RequiredSetup) : asked.foldl after setup = setup.withLines asked := by
  induction asked generalizing setup with
  | nil =>
    simp [withLines, requiredNames]
  | cons line rest ih =>
    obtain ⟨hline, hrest⟩ := List.forall_mem_cons.1 h
    rw [List.foldl_cons, ih hrest, withLines_cons hline]

end RequiredSetup

theorem RequireLine.eq_none_of_topic_ne (line : RequireLine) :
    (line.topic ≠ .framebuffer → line.framebuffer? = none) ∧
      (line.topic ≠ .depthStencil → line.depthStencil? = none) ∧
      (line.topic ≠ .framebufferSize → line.framebufferSize? = none) ∧
      (line.topic ≠ .fenceTimeout → line.fenceTimeout? = none) ∧
      ∀ kind, line.topic ≠ .requirement kind → line.nameOf? kind = none := by
  cases line <;>
    simp [topic, framebuffer?, depthStencil?, framebufferSize?, fenceTimeout?, nameOf?]

/-- What is only found in lines about one thing depends on those lines alone. -/
theorem filterMap_eq_of_topic {α : Type} {f : RequireLine → Option α} {topic : RequireTopic}
    (hf : ∀ line, line.topic ≠ topic → f line = none) {a b : List RequireLine}
    (h : a.filter (·.topic = topic) = b.filter (·.topic = topic)) :
    a.filterMap f = b.filterMap f := by
  have hfilter : ∀ l : List RequireLine,
      (l.filter (·.topic = topic)).filterMap f = l.filterMap f := by
    intro l
    rw [List.filterMap_filter]
    refine List.filterMap_congr fun line _ => ?_
    split
    · rfl
    · next htopic => exact (hf line fun heq => htopic (decide_eq_true heq)).symm
  rw [← hfilter a, h, hfilter b]

namespace RequiredSetup

theorem withLines_congr (setup : RequiredSetup) {a b : List RequireLine}
    (ha : ∀ line ∈ a, line.IsWellNamed) (hb : ∀ line ∈ b, line.IsWellNamed)
    (h : ∀ topic, a.filter (·.topic = topic) = b.filter (·.topic = topic)) :
    setup.withLines a = setup.withLines b := by
  have hnames : ∀ kind, requiredNames kind a = requiredNames kind b := by
    intro kind
    rw [requiredNames_eq kind ha, requiredNames_eq kind hb]
    exact filterMap_eq_of_topic (fun line => line.eq_none_of_topic_ne.2.2.2.2 kind) (h _)
  have hframebuffer := filterMap_eq_of_topic (fun line => line.eq_none_of_topic_ne.1) (h _)
  have hdepth := filterMap_eq_of_topic (fun line => line.eq_none_of_topic_ne.2.1) (h _)
  have hsize := filterMap_eq_of_topic (fun line => line.eq_none_of_topic_ne.2.2.1) (h _)
  have htimeout := filterMap_eq_of_topic (fun line => line.eq_none_of_topic_ne.2.2.2.1) (h _)
  simp only [withLines, hnames, hframebuffer, hdepth, hsize, htimeout]

end RequiredSetup

theorem Asks.isWellNamed {lines : List (List Char)} {asked : List RequireLine}
    (h : Asks lines asked) : ∀ line ∈ asked, line.IsWellNamed := by
  induction h with
  | nil => exact List.forall_mem_nil _
  | blank _ _ ih => exact ih
  | cons _ hfirst _ ih =>
    refine List.forall_mem_cons.2 ⟨?_, ih⟩
    cases hfirst with
    | requirement _ hkind => exact hkind
    | framebuffer | depthStencil | framebufferSize | fenceTimeout => trivial

/-- Whether a text is a single require section with some lines behind its header, and nothing but
blank lines before it. -/
def IsRequireSection (settings : Settings) (source : List Char) (body : List (List Char)) : Prop :=
  ∃ ahead header lines, scannedLines settings source = some (ahead ++ header :: lines) ∧
    (∀ line ∈ ahead, IsContent [] line.text) ∧ IsRequireHeader header.text ∧
    lines.map NumberedLine.text = body ∧ ∀ line ∈ body, line.head? ≠ some '['

theorem setFormat_frameBuffer (kind : BufferKind) (old new : Format) (size : Nat × Nat) :
    (frameBuffer kind old size).setFormat new = frameBuffer kind new size := by
  simp [Buffer.setFormat, Buffer.setElementCount, frameBuffer, Buffer.ofFormat,
    Format.elementsIn_zero]

namespace RequiredSetup

variable (setup : RequiredSetup) (format : Format)

theorem updateAt_color :
    updateAt setup.buffers 0 (fun buffer => .ok (buffer.setFormat format)) =
      .ok { setup with color := format }.buffers := by
  have hcolor : setup.buffers[0]? = some (frameBuffer .color setup.color setup.size) := rfl
  have hupdate : updateAt setup.buffers 0 (fun buffer => .ok (buffer.setFormat format)) =
      .ok (setup.buffers.set 0 ((frameBuffer .color setup.color setup.size).setFormat format)) :=
    updateAt_eq hcolor rfl
  rw [setFormat_frameBuffer] at hupdate
  exact hupdate

theorem setDepthFormat_buffers :
    setDepthFormat setup.buffers format = .ok { setup with depth? := some format }.buffers := by
  obtain ⟨color, depth?, size⟩ := setup
  cases depth? with
  | none => rfl
  | some old =>
    let setup : RequiredSetup := { color := color, depth? := some old, size := size }
    have hindex : indexOfKind? setup.buffers .depth = some 1 := rfl
    have hdepth : setup.buffers[1]? = some (frameBuffer .depth old size) := rfl
    have hupdate : updateAt setup.buffers 1 (fun buffer => .ok (buffer.setFormat format)) =
        .ok (setup.buffers.set 1 ((frameBuffer .depth old size).setFormat format)) :=
      updateAt_eq hdepth rfl
    rw [setFormat_frameBuffer] at hupdate
    unfold setDepthFormat
    split
    · next index hfound =>
      obtain rfl : 1 = index := Option.some.inj (hindex.symm.trans hfound)
      exact hupdate
    · next hfound => cases hindex.symm.trans hfound

theorem setFramebufferSize_buffers (width height : Nat) :
    setFramebufferSize setup.buffers width height =
      { setup with size := (width, height) }.buffers := by
  obtain ⟨color, depth?, size⟩ := setup
  cases depth? <;> rfl

end RequiredSetup

namespace Loading

variable {state : Loading} {setup : RequiredSetup}

theorem exists_runRequireLine_of_script (h : state.script = setup.script) (line : RequireLine) :
    ∃ new, state.runRequireLine line = .ok new ∧ new.script = (setup.after line).script ∧
      new.current = state.current := by
  have hbuffers : state.script.buffers = setup.buffers := congrArg Script.buffers h
  cases line with
  | framebuffer format =>
    refine ⟨state.setBuffers { setup with color := format }.buffers, ?_, ?_, rfl⟩
    · rw [runRequireLine, hbuffers, setup.updateAt_color]
      rfl
    · rw [setBuffers, h]
      rfl
  | depthStencil format =>
    refine ⟨state.setBuffers { setup with depth? := some format }.buffers, ?_, ?_, rfl⟩
    · rw [runRequireLine, hbuffers, setup.setDepthFormat_buffers]
      rfl
    · rw [setBuffers, h]
      rfl
  | framebufferSize width height =>
    refine ⟨_, rfl, ?_, rfl⟩
    rw [hbuffers, setup.setFramebufferSize_buffers, setBuffers, h]
    rfl
  | fenceTimeout timeout => exact ⟨_, rfl, by rw [h]; rfl, rfl⟩
  | requirement kind name => exact ⟨_, rfl, by rw [h]; rfl, rfl⟩

theorem takeLine_of_readRequireLine (hcurrent : state.current = .require) {number : Nat}
    {text : List Char} (hheader : text.head? ≠ some '[') {asked? : Option RequireLine}
    (hread : readRequireLine text = .ok asked?) :
    state.takeLine number text = asked?.elim (.ok state) state.runRequireLine := by
  rw [takeLine_of_ne_bracket hheader, takeBodyLine, hcurrent]
  dsimp only
  rw [takeRequireLine, hread]
  cases asked? <;> rfl

theorem exists_of_takeLine_require (hcurrent : state.current = .require) {number : Nat}
    {text : List Char} (hheader : text.head? ≠ some '[') {next : Loading}
    (h : state.takeLine number text = .ok next) :
    ∃ asked?, readRequireLine text = .ok asked? ∧ next.current = .require := by
  rw [takeLine_of_ne_bracket hheader, takeBodyLine, hcurrent] at h
  have hsame := ((ignoresShaders_takeRequireLine text).keeps h).2
  obtain ⟨asked?, hread, -⟩ := exists_of_bind_eq_ok h
  exact ⟨asked?, orInvalid_eq_ok_iff.1 hread, hsame.trans hcurrent⟩

variable {lines : List NumberedLine} {asked : List RequireLine} {final : Loading}

/-- The lines of a require section settle what they ask for. -/
theorem exists_foldlM_of_asks (h : state.script = setup.script) (hcurrent : state.current = .require)
    (hheaders : ∀ line ∈ lines.map NumberedLine.text, line.head? ≠ some '[')
    (hlines : Asks (lines.map NumberedLine.text) asked) :
    ∃ final, lines.foldlM takeNumbered state = .ok final ∧
      final.script = (asked.foldl RequiredSetup.after setup).script ∧
      final.current = .require := by
  induction lines generalizing state setup asked with
  | nil =>
    cases hlines
    exact ⟨state, rfl, h, hcurrent⟩
  | cons line rest ih =>
    rw [List.map_cons] at hheaders hlines
    obtain ⟨hheader, hheaders⟩ := List.forall_mem_cons.1 hheaders
    cases hlines with
    | blank hline hrest =>
      obtain ⟨final, hfinal, hscript⟩ := ih h hcurrent hheaders hrest
      have htake : state.takeLine line.number line.text = .ok state :=
        takeLine_of_readRequireLine hcurrent hheader (readRequireLine_eq_none_iff.2 hline)
      refine ⟨final, ?_, hscript⟩
      rw [List.foldlM_cons, takeNumbered_of_takeLine htake]
      exact hfinal
    | @cons _ text _ first more hline hfirst hrest =>
      obtain ⟨new, hnew, hscript, hsame⟩ := exists_runRequireLine_of_script h first
      obtain ⟨final, hfinal, hafter⟩ := ih hscript (hsame.trans hcurrent) hheaders hrest
      have hread := readRequireLine_eq_some_iff.2 ⟨text, hline, hfirst⟩
      have htake : state.takeLine line.number line.text = state.runRequireLine first :=
        takeLine_of_readRequireLine hcurrent hheader hread
      refine ⟨final, ?_, hafter⟩
      rw [List.foldlM_cons, takeNumbered_of_takeLine (htake.trans hnew)]
      exact hfinal

theorem exists_asks_of_foldlM (hcurrent : state.current = .require)
    (hheaders : ∀ line ∈ lines.map NumberedLine.text, line.head? ≠ some '[')
    (h : lines.foldlM takeNumbered state = .ok final) :
    ∃ asked, Asks (lines.map NumberedLine.text) asked := by
  induction lines generalizing state with
  | nil => exact ⟨[], .nil⟩
  | cons line rest ih =>
    rw [List.map_cons] at hheaders ⊢
    obtain ⟨hheader, hheaders⟩ := List.forall_mem_cons.1 hheaders
    obtain ⟨next, hnext, hrest⟩ := exists_of_bind_eq_ok h
    obtain ⟨asked?, hread, hsame⟩ :=
      exists_of_takeLine_require hcurrent hheader (takeLine_of_takeNumbered hnext)
    obtain ⟨more, hmore⟩ := ih hsame hheaders hrest
    exact ⟨_, hmore.of_read hread⟩

theorem foldlM_blank (hcurrent : state.current = .outside)
    (h : ∀ line ∈ lines, IsContent [] line.text) : lines.foldlM takeNumbered state = .ok state := by
  induction lines with
  | nil => rfl
  | cons line rest ih =>
    obtain ⟨hline, hrest⟩ := List.forall_mem_cons.1 h
    have htake : state.takeLine line.number line.text = .ok state := by
      rw [takeLine_of_ne_bracket hline.head?_ne_bracket, takeBodyLine, hcurrent]
      dsimp only
      rw [content?_eq_none_iff.2 hline]
    rw [List.foldlM_cons, takeNumbered_of_takeLine htake]
    exact ih hrest

end Loading

theorem exists_start_of_format {settings : Settings} {format : Format}
    (h : settings.framebufferFormat = .ok format) :
    ∃ start, Loading.start settings = .ok start ∧
      start.script = (RequiredSetup.start settings format).script ∧
      start.current = .outside ∧ start.begun = false := by
  refine ⟨_, by rw [Loading.start, h]; rfl, rfl, rfl, rfl⟩

namespace Script

variable {settings : Settings} {source : List Char} {body : List (List Char)}
  {asked : List RequireLine}

/-- Behind blank lines and its header, a require section starts with nothing settled. -/
theorem exists_opened {format : Format} (hformat : settings.framebufferFormat = .ok format)
    {ahead : List NumberedLine} (hblank : ∀ line ∈ ahead, IsContent [] line.text)
    {header : NumberedLine} (hheader : IsRequireHeader header.text) :
    ∃ start opened, Loading.start settings = .ok start ∧
      opened.script = (RequiredSetup.start settings format).script ∧ opened.current = .require ∧
      ∀ lines, (ahead ++ header :: lines).foldlM Loading.takeNumbered start =
        lines.foldlM Loading.takeNumbered opened := by
  obtain ⟨start, hstart, hscript, hcurrent, hbegun⟩ := exists_start_of_format hformat
  obtain ⟨text, htext, hread⟩ := exists_readHeader_require hheader
  have hended : start.endSection = start := by
    obtain ⟨script, current, begun, vertexData⟩ := start
    cases hcurrent
    rfl
  have henter : start.enter .require = .ok (start.beginSection .require) := by
    rw [Loading.enter, hbegun]
    rfl
  have hopens : start.takeLine header.number header.text = .ok (start.beginSection .require) := by
    rw [htext, Loading.takeLine, Loading.takeHeader, hread, hended]
    exact congrArg orInvalid henter
  refine ⟨start, start.beginSection .require, hstart, hscript, rfl, fun lines => ?_⟩
  rw [List.foldlM_append, Loading.foldlM_blank hcurrent hblank]
  dsimp only [bind, Except.bind]
  rw [List.foldlM_cons, Loading.takeNumbered_of_takeLine hopens]
  rfl

theorem load_of_asks {format : Format} (hformat : settings.framebufferFormat = .ok format)
    (h : IsRequireSection settings source body) (hasked : Asks body asked) :
    load settings source = .ok ((RequiredSetup.start settings format).withLines asked).script := by
  obtain ⟨ahead, header, lines, hlines, hblank, hheader, rfl, hheaders⟩ := h
  obtain ⟨start, opened, hstart, hscript, hcurrent, hfold⟩ := exists_opened hformat hblank hheader
  obtain ⟨final, hfinal, hsettled, hrequire⟩ :=
    Loading.exists_foldlM_of_asks hscript hcurrent hheaders hasked
  rw [load_of_scannedLines hstart hlines ((hfold lines).trans hfinal), Loading.endSection, hrequire]
  dsimp only
  rw [hsettled, RequiredSetup.foldl_after hasked.isWellNamed]

theorem exists_asks_of_load (h : IsRequireSection settings source body) {script : Script}
    (hload : load settings source = .ok script) : ∃ asked, Asks body asked := by
  obtain ⟨ahead, header, lines, hlines, hblank, hheader, rfl, hheaders⟩ := h
  obtain ⟨format, hformat⟩ := exists_framebufferFormat settings
  obtain ⟨start, opened, hstart, -, hcurrent, hfold⟩ := exists_opened hformat hblank hheader
  obtain ⟨first, scanned, final, hfirst, hscanned, hfinal, -⟩ := exists_scannedLines_of_load hload
  cases hstart.symm.trans hfirst
  cases hlines.symm.trans hscanned
  rw [hfold lines] at hfinal
  exact Loading.exists_asks_of_foldlM hcurrent hheaders hfinal

theorem depthIndex?_script (setup : RequiredSetup) :
    setup.script.depthIndex? = if setup.depth? = none then none else some 1 := by
  obtain ⟨color, depth?, size⟩ := setup
  cases depth? <;> rfl

/-- A script of a single require section is loaded exactly if each line behind the header is blank or
asks for something. It has the last format and size asked for, a depth buffer at index one exactly if
a line asks for it, the last time to wait for a fence, and all the names in their lists. Another
order of lines that keeps those about one thing in order gives the same. -/
theorem exists_load_of_isRequireSection (h : IsRequireSection settings source body) :
    ∃ format, settings.framebufferFormat = .ok format ∧
      (∀ script, load settings source = .ok script ↔ ∃ asked, Asks body asked ∧
        ((RequiredSetup.start settings format).withLines asked).script = script) ∧
      (∀ asked, ((RequiredSetup.start settings format).withLines asked).script.depthIndex? =
        if asked.filterMap RequireLine.depthStencil? = [] then none else some 1) ∧
      ∀ (other : List Char) (moved : List (List Char)) (asked reordered : List RequireLine),
        IsRequireSection settings other moved → Asks body asked → Asks moved reordered →
        (∀ topic, reordered.filter (·.topic = topic) = asked.filter (·.topic = topic)) →
        load settings other = load settings source := by
  obtain ⟨format, hformat⟩ := exists_framebufferFormat settings
  refine ⟨format, hformat, ?_, ?_, ?_⟩
  · intro script
    constructor
    · intro hload
      obtain ⟨asked, hasked⟩ := exists_asks_of_load h hload
      exact ⟨asked, hasked, Except.ok.inj ((load_of_asks hformat h hasked).symm.trans hload)⟩
    · rintro ⟨asked, hasked, rfl⟩
      exact load_of_asks hformat h hasked
  · intro asked
    have hdepth : ((RequiredSetup.start settings format).withLines asked).depth? = none ↔
        asked.filterMap RequireLine.depthStencil? = [] := by
      rw [RequiredSetup.withLines, RequiredSetup.start, Option.or_none, List.getLast?_eq_none_iff]
    rw [depthIndex?_script]
    exact if_congr hdepth rfl rfl
  · intro other moved asked reordered hother hasked hreordered hsame
    have hsettled := (RequiredSetup.start settings format).withLines_congr hreordered.isWellNamed
      hasked.isWellNamed hsame
    rw [load_of_asks hformat hother hreordered, hsettled, load_of_asks hformat h hasked]

/-- Two lines about each thing around others, a number in base sixteen and a name required twice. The
lines about each thing stay in order when they are moved. -/
theorem exists_load_of_interleaved_requirements :
    ∃ script : Script,
      script = {
        buffers := [
          frameBuffer .color ⟨some "R8_UNORM", none, [⟨.r, 8, .unorm⟩],
            [.component .unorm .uint8], by decide⟩ (3, 4),
          frameBuffer .depth ⟨some "D32_SFLOAT", none, [⟨.d, 32, .sfloat⟩],
            [.component .sfloat .float32], by decide⟩ (3, 4)]
        requirements := {
          features := ["wideLines", "wideLines"]
          deviceExtensions := ["VK_KHR_maintenance1"]
          instanceExtensions := ["VK_KHR_surface"] }
        fenceTimeout := some 250 } ∧
      script.depthIndex? = some 1 ∧
      load {} ("\n[require]\nfbsize 10 20\ndepthstencil D16_UNORM\nwideLines\n" ++
        "fence_timeout 7\nframebuffer R8_UNORM\nVK_KHR_surface\ndepthstencil\t D32_SFLOAT\n" ++
        "VK_KHR_maintenance1\nwideLines # again\n\nfence_timeout 0xfa\n fbsize 3 4").toList =
          .ok script ∧
      load {} ("[ require ] \nwideLines\nframebuffer R8_UNORM\nfbsize 10 20\n" ++
        "VK_KHR_maintenance1\nfence_timeout 7\nfbsize 3 4\nfence_timeout 0xfa\nwideLines\n" ++
        "depthstencil D16_UNORM\nVK_KHR_surface\ndepthstencil D32_SFLOAT").toList =
          .ok script := by
  have hrules : ({} : Settings).rules = [] := rfl
  let color : Format := ⟨some "R8_UNORM", none, [⟨.r, 8, .unorm⟩],
    [.component .unorm .uint8], by decide⟩
  let early : Format := ⟨some "D16_UNORM", none, [⟨.d, 16, .unorm⟩],
    [.component .unorm .uint16], by decide⟩
  let depth : Format := ⟨some "D32_SFLOAT", none, [⟨.d, 32, .sfloat⟩],
    [.component .sfloat .float32], by decide⟩
  let lines : List NumberedLine := [⟨3, "fbsize 10 20\n".toList⟩,
    ⟨4, "depthstencil D16_UNORM\n".toList⟩, ⟨5, "wideLines\n".toList⟩,
    ⟨6, "fence_timeout 7\n".toList⟩, ⟨7, "framebuffer R8_UNORM\n".toList⟩,
    ⟨8, "VK_KHR_surface\n".toList⟩, ⟨9, "depthstencil\t D32_SFLOAT\n".toList⟩,
    ⟨10, "VK_KHR_maintenance1\n".toList⟩, ⟨11, "wideLines # again\n".toList⟩, ⟨12, "\n".toList⟩,
    ⟨13, "fence_timeout 0xfa\n".toList⟩, ⟨14, " fbsize 3 4".toList⟩]
  let moved : List NumberedLine := [⟨2, "wideLines\n".toList⟩, ⟨3, "framebuffer R8_UNORM\n".toList⟩,
    ⟨4, "fbsize 10 20\n".toList⟩, ⟨5, "VK_KHR_maintenance1\n".toList⟩,
    ⟨6, "fence_timeout 7\n".toList⟩, ⟨7, "fbsize 3 4\n".toList⟩,
    ⟨8, "fence_timeout 0xfa\n".toList⟩, ⟨9, "wideLines\n".toList⟩,
    ⟨10, "depthstencil D16_UNORM\n".toList⟩, ⟨11, "VK_KHR_surface\n".toList⟩,
    ⟨12, "depthstencil D32_SFLOAT".toList⟩]
  let asked : List (Option RequireLine) := [some (.framebufferSize 10 20),
    some (.depthStencil early), some (.requirement .feature "wideLines"), some (.fenceTimeout 7),
    some (.framebuffer color), some (.requirement .instanceExtension "VK_KHR_surface"),
    some (.depthStencil depth), some (.requirement .deviceExtension "VK_KHR_maintenance1"),
    some (.requirement .feature "wideLines"), none, some (.fenceTimeout 250),
    some (.framebufferSize 3 4)]
  let reordered : List (Option RequireLine) := [some (.requirement .feature "wideLines"),
    some (.framebuffer color), some (.framebufferSize 10 20),
    some (.requirement .deviceExtension "VK_KHR_maintenance1"), some (.fenceTimeout 7),
    some (.framebufferSize 3 4), some (.fenceTimeout 250), some (.requirement .feature "wideLines"),
    some (.depthStencil early), some (.requirement .instanceExtension "VK_KHR_surface"),
    some (.depthStencil depth)]
  have hasked : Asks (lines.map NumberedLine.text) (asked.flatMap Option.toList) :=
    asks_of_forall₂ (mapM_eq_ok_iff.1 (by decide +kernel))
  have hreordered : Asks (moved.map NumberedLine.text) (reordered.flatMap Option.toList) :=
    asks_of_forall₂ (mapM_eq_ok_iff.1 (by decide +kernel))
  have hlines : logicalLines ("\n[require]\nfbsize 10 20\ndepthstencil D16_UNORM\nwideLines\n" ++
      "fence_timeout 7\nframebuffer R8_UNORM\nVK_KHR_surface\ndepthstencil\t D32_SFLOAT\n" ++
      "VK_KHR_maintenance1\nwideLines # again\n\nfence_timeout 0xfa\n fbsize 3 4").toList =
        [⟨1, ['\n']⟩] ++ ⟨2, "[require]\n".toList⟩ :: lines := by decide +kernel
  have hmoved : logicalLines ("[ require ] \nwideLines\nframebuffer R8_UNORM\nfbsize 10 20\n" ++
      "VK_KHR_maintenance1\nfence_timeout 7\nfbsize 3 4\nfence_timeout 0xfa\nwideLines\n" ++
      "depthstencil D16_UNORM\nVK_KHR_surface\ndepthstencil D32_SFLOAT").toList =
        [] ++ ⟨1, "[ require ] \n".toList⟩ :: moved := by decide +kernel
  have hblank : ∀ line ∈ [NumberedLine.mk 1 ['\n']], IsContent [] line.text :=
    List.forall_mem_singleton.2 (content?_eq_none_iff.1 (by decide +kernel))
  have hheader : IsRequireHeader "[require]\n".toList :=
    ⟨"require".toList, ['\n'], rfl, trim_eq_iff.1 (by decide), by decide⟩
  have hspaced : IsRequireHeader "[ require ] \n".toList :=
    ⟨" require ".toList, [' ', '\n'], rfl, trim_eq_iff.1 (by decide), by decide⟩
  obtain ⟨format, -, hload, hdepth, hsame⟩ := exists_load_of_isRequireSection
    ⟨_, _, lines, (mapM_scan?_of_no_rules hrules _).trans (congrArg some hlines), hblank, hheader,
      rfl, by decide⟩
  have hfirst := (hload _).2 ⟨_, hasked, rfl⟩
  have hfeatures : requiredNames .feature (asked.flatMap Option.toList) =
      ["wideLines", "wideLines"] := by decide +kernel
  have hdevice : requiredNames .deviceExtension (asked.flatMap Option.toList) =
      ["VK_KHR_maintenance1"] := by decide +kernel
  have hinstance : requiredNames .instanceExtension (asked.flatMap Option.toList) =
      ["VK_KHR_surface"] := by decide +kernel
  have htopics : ∀ topic ∈ [RequireTopic.framebuffer, .depthStencil, .framebufferSize,
      .fenceTimeout, .requirement .feature, .requirement .deviceExtension,
      .requirement .instanceExtension],
      (reordered.flatMap Option.toList).filter (·.topic = topic) =
        (asked.flatMap Option.toList).filter (·.topic = topic) := by decide +kernel
  have hother := hsame _ _ _ _ ⟨_, _, moved, (mapM_scan?_of_no_rules hrules _).trans
    (congrArg some hmoved), List.forall_mem_nil _, hspaced, rfl, by decide⟩ hasked hreordered (by
      rintro (_ | _ | _ | _ | _ | _ | _) <;> exact htopics _ (by decide))
  have hsome : (asked.flatMap Option.toList).filterMap RequireLine.depthStencil? ≠ [] :=
    List.cons_ne_nil early [depth]
  have hindex := hdepth (asked.flatMap Option.toList)
  rw [if_neg hsome] at hindex
  refine ⟨_, ?_, hindex, hfirst, hother.trans hfirst⟩
  rw [RequiredSetup.withLines, hfeatures, hdevice, hinstance]
  rfl

end Script

end GpuScript
