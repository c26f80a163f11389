import EmulatedDevice.SystemImage

/-!
# Emulator tools and what a device depends on

A toolchain names the tools once for all devices. Two of its parts are bundles of
files from which one file is picked by a rule; a bundle that does not offer
exactly one is a fault of the toolchain and not of the device.

`ToolSet.common` lists, in a fixed order, every file that booting or running a
device may touch.
-/

namespace EmulatedDevice

structure ToolSet where
  adb : Artifact
  adbStatic : Artifact
  emulatorArm : Artifact
  emulatorX86 : Artifact
  biosFiles : List Artifact
  xvfbSupport : List Artifact
  mksdcard : Artifact
  emptySnapshot : Artifact
  launcher : ExecutableBundle
  runtestFiles : List Artifact
  shbaseFiles : List Artifact
  sdkPath : Artifact
  deriving DecidableEq, Repr

/-- A bundle that does not offer exactly one file of the wanted kind. -/
inductive ToolchainFault where
  | missing (wanted : String) (bundle : List Artifact)
  | several (wanted : String) (count : Nat) (bundle : List Artifact)
  deriving DecidableEq, Repr

def ToolchainFault.message : ToolchainFault → String
  | .missing wanted bundle => "no " ++ wanted ++ " found among: " ++ offer bundle
  | .several wanted count bundle =>
    "expected exactly one " ++ wanted ++ ", found " ++ toString count ++ " among: " ++ offer bundle
where
  /-- The exec paths on offer, or a remark when they come to nothing. -/
  offer (bundle : List Artifact) : String :=
    let paths := Artifact.joinExec ", " bundle
    if paths = "" then "<empty>" else paths

/-- The only file of a bundle that satisfies `p`. -/
def pickSingle (wanted : String) (p : Artifact → Bool) (bundle : List Artifact) :
    Except ToolchainFault Artifact :=
  match Selection.single p bundle with
  | .found a => .ok a
  | .notFound => .error (.missing wanted bundle)
  | .ambiguous candidates => .error (.several wanted candidates.length bundle)

/-- The test runner: the one source file of its bundle. -/
def pickRuntest (bundle : List Artifact) : Except ToolchainFault Artifact :=
  pickSingle "android_runtest source file" Artifact.isSource bundle

def shbaseName : String := "googletest.sh"

/-- The shell test library: the one file of that name in its bundle. -/
def pickShbase (bundle : List Artifact) : Except ToolchainFault Artifact :=
  pickSingle shbaseName (fun a => a.basename == shbaseName) bundle

/-- The files that every use of the device needs, in a fixed order. -/
def ToolSet.common (tools : ToolSet) (image : SystemImage) (apks : List Artifact) :
    List Artifact :=
  [tools.adb, image.properties] ++ image.images
    ++ [tools.emulatorArm, tools.emulatorX86, tools.adbStatic]
    ++ tools.biosFiles ++ tools.xvfbSupport
    ++ [tools.mksdcard, tools.emptySnapshot]
    ++ tools.launcher.files ++ tools.runtestFiles ++ tools.shbaseFiles ++ apks

/-- Everything that the launcher script and the boot action refer to. -/
structure Dependencies where
  tools : ToolSet
  image : SystemImage
  runtest : Artifact
  shbase : Artifact
  apks : List Artifact
  common : List Artifact
  deriving DecidableEq, Repr

/-- Picks from the bundles, the test runner first, and lists the common files. -/
def Dependencies.collect (tools : ToolSet) (image : SystemImage) (apks : List Artifact) :
    Except ToolchainFault Dependencies := do
  let runtest ← pickRuntest tools.runtestFiles
  let shbase ← pickShbase tools.shbaseFiles
  return ⟨tools, image, runtest, shbase, apks, tools.common image apks⟩

end EmulatedDevice
