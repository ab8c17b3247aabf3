/-!
# Requirements

A requirement is the name of a device feature or of an extension. The features and the extensions
of the instance are known by name; any other well-formed extension name is an extension of the
device.
-/

namespace GpuScript

def featureNames : List String :=
  ["robustBufferAccess", "fullDrawIndexUint32", "imageCubeArray", "independentBlend",
   "geometryShader", "tessellationShader", "sampleRateShading", "dualSrcBlend", "logicOp",
   "multiDrawIndirect", "drawIndirectFirstInstance", "depthClamp", "depthBiasClamp",
   "fillModeNonSolid", "depthBounds", "wideLines", "largePoints", "alphaToOne", "multiViewport",
   "samplerAnisotropy", "textureCompressionETC2", "textureCompressionASTC_LDR",
   "textureCompressionBC", "occlusionQueryPrecise", "pipelineStatisticsQuery",
   "vertexPipelineStoresAndAtomics", "fragmentStoresAndAtomics",
   "shaderTessellationAndGeometryPointSize", "shaderImageGatherExtended",
   "shaderStorageImageExtendedFormats", "shaderStorageImageMultisample",
   "shaderStorageImageReadWithoutFormat", "shaderStorageImageWriteWithoutFormat",
   "shaderUniformBufferArrayDynamicIndexing", "shaderSampledImageArrayDynamicIndexing",
   "shaderStorageBufferArrayDynamicIndexing", "shaderStorageImageArrayDynamicIndexing",
   "shaderClipDistance", "shaderCullDistance", "shaderFloat64", "shaderInt64", "shaderInt16",
   "shaderResourceResidency", "shaderResourceMinLod", "sparseBinding", "sparseResidencyBuffer",
   "sparseResidencyImage2D", "sparseResidencyImage3D", "sparseResidency2Samples",
   "sparseResidency4Samples", "sparseResidency8Samples", "sparseResidency16Samples",
   "sparseResidencyAliased", "variableMultisampleRate", "inheritedQueries",
   "VariablePointerFeatures.variablePointers",
   "VariablePointerFeatures.variablePointersStorageBuffer"]

def instanceExtensionNames : List String :=
  ["VK_EXT_debug_report", "VK_EXT_debug_utils", "VK_KHR_device_group_creation",
   "VK_KHR_external_fence_capabilities", "VK_KHR_external_memory_capabilities",
   "VK_KHR_external_semaphore_capabilities", "VK_KHR_get_physical_device_properties2",
   "VK_KHR_get_surface_capabilities2", "VK_KHR_surface"]

inductive RequirementKind | feature | deviceExtension | instanceExtension
  deriving DecidableEq

def isExtensionChar (c : Char) : Bool := c.isAlphanum || c == '_'

def isExtensionName (name : List Char) : Bool :=
  match name with
  | 'V' :: 'K' :: '_' :: c :: rest => (c :: rest).all isExtensionChar
  | _ => false

def RequirementKind.ofName? (name : String) : Option RequirementKind :=
  if featureNames.contains name then some .feature
  else if instanceExtensionNames.contains name then some .instanceExtension
  else if isExtensionName name.toList then some .deviceExtension
  else none

/-- A requirement that is neither a known feature nor an extension name. -/
structure UnknownRequirement where
  name : String
  deriving DecidableEq

def UnknownRequirement.message (error : UnknownRequirement) : String :=
  "Unknown feature or extension: " ++ error.name

/-- The requirements of a script in order, repeated ones included. -/
structure Requirements where
  features : List String := []
  deviceExtensions : List String := []
  instanceExtensions : List String := []
  deriving DecidableEq

namespace Requirements

def insert (requirements : Requirements) (kind : RequirementKind) (name : String) : Requirements :=
  match kind with
  | .feature => { requirements with features := requirements.features ++ [name] }
  | .deviceExtension =>
    { requirements with deviceExtensions := requirements.deviceExtensions ++ [name] }
  | .instanceExtension =>
    { requirements with instanceExtensions := requirements.instanceExtensions ++ [name] }

/-- The requirements with a further one, and what it asks for. -/
def add (requirements : Requirements) (name : String) :
    Except UnknownRequirement (RequirementKind × Requirements) :=
  match RequirementKind.ofName? name with
  | some kind => .ok (kind, requirements.insert kind name)
  | none => .error ⟨name⟩

end Requirements

end GpuScript
