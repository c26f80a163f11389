/-!
# The packaged launcher template

A shell script with the sixteen placeholders, each once. It finds the runfiles
tree that belongs to it, changes into the workspace directory in that tree, and
hands control to the unified launcher.
-/

namespace EmulatedDevice.Template

def packagedLines : List String :=
  [ "#!/bin/bash"
  , "#"
  , "# Launcher for an android_device target."
  , "#"
  , "# Locates the runfiles tree of this script, changes into the workspace"
  , "# directory inside it and hands control to the unified launcher, which"
  , "# starts the emulator from the images produced by the boot action."
  , ""
  , "set -euo pipefail"
  , ""
  , "WORKSPACE_NAME=\"%workspace%\""
  , ""
  , "if [[ -n \"$\x7bRUNFILES_DIR:-\x7d\" ]]; then"
  , "  RUNFILES=\"$\x7bRUNFILES_DIR\x7d\""
  , "elif [[ -n \"$\x7bTEST_SRCDIR:-\x7d\" ]]; then"
  , "  RUNFILES=\"$\x7bTEST_SRCDIR\x7d\""
  , "else"
  , "  self=\"$0\""
  , "  if [[ \"$\x7bself\x7d\" != /* ]]; then"
  , "    self=\"$\x7bPWD\x7d/$\x7bself\x7d\""
  , "  fi"
  , "  while [[ ! -d \"$\x7bself\x7d.runfiles\" && -L \"$\x7bself\x7d\" ]]; do"
  , "    link=\"$(readlink \"$\x7bself\x7d\")\""
  , "    if [[ \"$\x7blink\x7d\" == /* ]]; then"
  , "      self=\"$\x7blink\x7d\""
  , "    else"
  , "      self=\"$(dirname \"$\x7bself\x7d\")/$\x7blink\x7d\""
  , "    fi"
  , "  done"
  , "  RUNFILES=\"$\x7bself\x7d.runfiles\""
  , "fi"
  , ""
  , "if [[ ! -d \"$\x7bRUNFILES\x7d/$\x7bWORKSPACE_NAME\x7d\" ]]; then"
  , "  echo \"Cannot locate runfiles for $\x7bWORKSPACE_NAME\x7d (looked in $\x7bRUNFILES\x7d)\" >&2"
  , "  exit 1"
  , "fi"
  , "cd \"$\x7bRUNFILES\x7d/$\x7bWORKSPACE_NAME\x7d\""
  , ""
  , "UNIFIED_LAUNCHER=\"%unified_launcher%\""
  , ""
  , "exec \"$\x7bUNIFIED_LAUNCHER\x7d\" \\"
  , "  --action=start \\"
  , "  --adb=\"%adb%\" \\"
  , "  --adb_static=\"%adb_static%\" \\"
  , "  --emulator_x86=\"%emulator_x86%\" \\"
  , "  --emulator_arm=\"%emulator_arm%\" \\"
  , "  --mksdcard=\"%mksdcard%\" \\"
  , "  --empty_snapshot_fs=\"%empty_snapshot_fs%\" \\"
  , "  --system_images=\"%system_images%\" \\"
  , "  --bios_files=\"%bios_files%\" \\"
  , "  --source_properties_file=\"%source_properties_file%\" \\"
  , "  --image_input_file=\"%image_input_file%\" \\"
  , "  --emulator_metadata_path=\"%emulator_metadata_path%\" \\"
  , "  --android_runtest=\"%android_runtest%\" \\"
  , "  --testing_shbase=\"%testing_shbase%\" \\"
  , "  --android_sdk_path=\"%sdk_path%\" \\"
  , "  --flag_configured_android_tools \\"
  , "  \"$@\"" ]

/-- The template that is used when none is named; every line ends with a newline. -/
def packaged : String :=
  String.join (packagedLines.map (· ++ "\n"))

end EmulatedDevice.Template
