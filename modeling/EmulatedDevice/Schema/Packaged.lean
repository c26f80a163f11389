import EmulatedDevice.Schema.Document

/-!
# The packaged schemas

The shape of a device declaration and of a toolchain manifest. They ask for kinds
and keys only; how large a number may be is not their matter, so that all bounds
that a device breaks are reported together.

A path entry is a text, for a source file, or a mapping with a path and an output
root, for a generated file.
-/

namespace EmulatedDevice.Schema

def pathEntryBody : Schema :=
  .oneOf
    [ .text .nonEmpty
    , .record ["path", "root"] [("path", .text .nonEmpty), ("root", .text .nonEmpty)] ]

def pathEntry : Schema := .named "path_entry" pathEntryBody

def pathListBody : Schema := .list pathEntry

def pathList : Schema := .named "path_list" pathListBody

def device : Schema :=
  .record
    [ "name", "horizontal_resolution", "vertical_resolution", "ram", "screen_density", "cache"
    , "vm_heap", "system_image" ]
    [ ("name", .text .name)
    , ("horizontal_resolution", .integer)
    , ("vertical_resolution", .integer)
    , ("ram", .integer)
    , ("screen_density", .integer)
    , ("cache", .integer)
    , ("vm_heap", .integer)
    , ("system_image",
        .record ["label", "files"] [("label", .text .nonEmpty), ("files", .list pathEntry)])
    , ("default_properties", .oneOf [.null, pathEntry])
    , ("platform_apks", .list pathEntry)
    , ("tags", .list (.text .nonEmpty)) ]

def toolchain : Schema :=
  .record
    [ "adb", "adb_static", "emulator_arm", "emulator_x86", "emulator_x86_bios", "mksdcard"
    , "empty_snapshot_fs", "unified_launcher", "android_runtest", "testing_shbase", "sdk_path" ]
    [ ("adb", pathEntry)
    , ("adb_static", pathEntry)
    , ("emulator_arm", pathEntry)
    , ("emulator_x86", pathEntry)
    , ("emulator_x86_bios", pathList)
    , ("xvfb_support", pathList)
    , ("mksdcard", pathEntry)
    , ("empty_snapshot_fs", pathEntry)
    , ("unified_launcher",
        .record ["executable"] [("executable", pathEntry), ("files", pathList)])
    , ("android_runtest", pathList)
    , ("testing_shbase", pathList)
    , ("sdk_path", pathEntry) ]

def deviceDocument : Document where
  name := "android_device.schema.json"
  title := "android_device declaration"
  body := device
  definitions := [("path_entry", pathEntryBody)]

def toolchainDocument : Document where
  name := "toolchain.schema.json"
  title := "android_device emulator toolchain manifest"
  body := toolchain
  definitions := [("path_entry", pathEntryBody), ("path_list", pathListBody)]

end EmulatedDevice.Schema
