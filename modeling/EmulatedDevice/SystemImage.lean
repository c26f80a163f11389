import EmulatedDevice.Artifact
import EmulatedDevice.Attributes
import EmulatedDevice.Selection

/-!
# System images

A file group is a usable system image when exactly one of its files is named
`source.properties`. That file describes the image; all others are the image.
-/

namespace EmulatedDevice

/-- A system image, split into its properties file and the image files. -/
structure SystemImage where
  label : String
  properties : Artifact
  images : List Artifact
  deriving DecidableEq, Repr

/-- The name that marks the properties file. -/
def SystemImage.propertiesName : String := "source.properties"

/-- Whether a file is a properties file. -/
def Artifact.isProperties (a : Artifact) : Bool :=
  a.basename == SystemImage.propertiesName

namespace FileGroup

/-- The issue of a group that is no system image, if it is none. -/
def issues (group : FileGroup) : List Issue :=
  match group.files.countP Artifact.isProperties with
  | 0 =>
    [⟨"system_image", "No source.properties files exist in this filegroup (" ++ group.label ++ ")"⟩]
  | 1 => []
  | _ =>
    [⟨"system_image",
      "Multiple source.properties files exist in this filegroup (" ++ group.label ++ ")"⟩]

/-- The system image that a group holds, when it holds one. -/
def systemImage? (group : FileGroup) : Option SystemImage :=
  match Selection.single Artifact.isProperties group.files with
  | .found properties =>
    some ⟨group.label, properties, group.files.filter fun a => !a.isProperties⟩
  | .notFound | .ambiguous _ => none

end FileGroup

/-- Everything that is wrong with a device: first its hardware, then its system image. -/
def configurationIssues (spec : DeviceSpec) (image : FileGroup) : List Issue :=
  spec.issues ++ image.issues

end EmulatedDevice
