import EmulatedDevice.CommandLine.Run

/-!
# Checking a declaration

The command loads one device declaration and says everything that is wrong with
the device. It reads files and changes none.
-/

namespace EmulatedDevice.CommandLine.Validate

def flags : List Flag :=
  [⟨"--device", true, []⟩, ⟨"--log_level", false, levelChoices⟩]

def execute (t : FileTree) (device : Path) : Run :=
  match t.loadDeclaration device with
  | .error fault => .ofLoadFault ("Device declaration invalid: " ++ device.render ++ ":\n") fault
  | .ok declaration =>
    match configurationIssues declaration.spec declaration.systemImage with
    | [] => ⟨.returned 0, "OK: " ++ declaration.name ++ " (" ++ device.render ++ ")\n", ""⟩
    | issues => ⟨.returned 1, issueLines issues, ""⟩

def run (t : FileTree) (words : List String) : Run :=
  match read flags words with
  | .error fault => .refused .refusedUsage ("validate_device.py: error: " ++ fault.message)
  | .ok .help => ⟨.help, "", ""⟩
  | .ok (.run values) => execute t (.ofString ((valueOf? "--device" values).getD ""))

end EmulatedDevice.CommandLine.Validate
