import EmulatedDevice.Artifact

/-!
# The files that a device target gives

A target called `name` in a package gives an executable `name` and a directory
`name_images` with the emulator metadata and the user data images. All three are
generated files below the output root.
-/

namespace EmulatedDevice

structure Outputs where
  executable : Artifact
  metadata : Artifact
  images : Artifact
  deriving DecidableEq, Repr

namespace Outputs

/-- The output root when none is named. -/
def defaultBinRoot : String := "bazel-out/k8-fastbuild/bin"

def forTarget (name package binRoot : String) : Outputs :=
  let base := Path.ofString package
  let imagesDir := base / Path.ofString (name ++ "_images")
  { executable := .derived binRoot (base / Path.ofString name).render
    metadata := .derived binRoot (imagesDir / Path.ofString "emulator-meta-data.pb").render
    images := .derived binRoot (imagesDir / Path.ofString "userdata_images.dat").render }

/-- What building the target leaves behind, in order. -/
def filesToBuild (outputs : Outputs) : List Artifact :=
  [outputs.executable, outputs.metadata, outputs.images]

end Outputs

end EmulatedDevice
