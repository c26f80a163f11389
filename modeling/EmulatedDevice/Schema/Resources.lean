import EmulatedDevice.Json.Printer
import EmulatedDevice.Loading
import EmulatedDevice.Stub.Packaged

/-!
# Packaged files

The packaged schemas and the packaged template as files of a tree of their own.
Schemas are looked up by paths that start in the directory of the schemas, and what
is found there passes for a schema without a check.
-/

namespace EmulatedDevice.Schema

def resourceFile (text : String) : FileNode :=
  .file (Text.encodeUtf8 text.toList) FileTree.defaultMode

def documentFile (document : Document) : FileNode :=
  resourceFile (Json.render document.toValue ++ "\n")

def resources : FileTree where
  nodes :=
    [ (["schemas"], .directory)
    , ([deviceDocument.name, "schemas"], documentFile deviceDocument)
    , ([toolchainDocument.name, "schemas"], documentFile toolchainDocument)
    , (["templates"], .directory)
    , (["android_device_stub_template.txt", "templates"], resourceFile Template.packaged) ]
  workingDirectory := ["schemas"]

def loadPackaged (name : String) : Except LoadFault Value :=
  resources.loadSchema .acceptAll (.ofString name)

end EmulatedDevice.Schema
