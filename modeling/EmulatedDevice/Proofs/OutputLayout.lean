import EmulatedDevice.Proofs.GeneratedFiles
import EmulatedDevice.Proofs.SharedFlags

/-!
# How the outputs of a target are laid out

The three files of a target are named by steps below its package: the executable by
the name of the target, the other two by a directory for the images and a file in
it. Each list of steps is joined to the package, written down, read again and joined
to the output root, and none of this changes it as long as the package is a relative
path and the name is one step. So the steps can be read off both paths of each file,
and whatever tells two lists of steps apart tells the files apart: within a target the
number of steps and the names of the two files, between two targets their names,
because a directory of images has the name of its target in front.

The launcher is given a directory to write to and not two files. It is where the
two files are declared, since both lists of steps end one step behind it.
-/

namespace EmulatedDevice

namespace Path

/-- A step stays one with text behind it. -/
theorem IsComponent.append {name more : String} (h : IsComponent name) (hmore : '/' ∉ more.toList) :
    IsComponent (name ++ more) := by
  obtain ⟨c, rest, hname⟩ := List.exists_cons_of_ne_nil
    (fun hnil => h.1 (String.toList_eq_nil_iff.1 hnil))
  have htext : (name ++ more).toList = c :: (rest ++ more.toList) := by
    rw [String.toList_append, hname, List.cons_append]
  refine ⟨fun heq => ?_, fun heq => ?_, ?_⟩
  · rw [heq] at htext
    cases htext
  · -- only a name that is `.` itself leaves nothing but a dot
    rw [heq] at htext
    obtain ⟨hc, hrest⟩ := List.cons.inj (htext.symm.trans (show ".".toList = ['.'] from rfl))
    rw [hc, (List.append_eq_nil_iff.1 hrest).1] at hname
    exact h.2.1 (String.toList_inj.1 hname)
  · rw [String.toList_append, List.mem_append, not_or]
    exact ⟨h.not_slash, hmore⟩

end Path

namespace Artifact

/-- A generated file that is found by going these steps: from the top of the runfiles tree, and from
its output root during the build. -/
structure StandsBelow (a : Artifact) (root : String) (steps : List String) : Prop where
  generated : a.isSource = false
  runfiles : Path.IsWritten a.runfiles .none steps
  exec : Path.IsWritten a.exec (Path.ofString root).root ((Path.ofString root).components ++ steps)

/-- Two files that have neither path in common. -/
structure SharesNoPath (a b : Artifact) : Prop where
  exec : a.exec ≠ b.exec
  runfiles : a.runfiles ≠ b.runfiles

variable {a b : Artifact} {root : String} {steps steps' : List String}

theorem standsBelow_derived {p : Path} (h : p.root = .none) (hsteps : p.components = steps) :
    (derived root p.render).StandsBelow root steps := by
  subst hsteps
  have hjoin := Path.join_of_root_none (p := .ofString root) h
  refine ⟨rfl, ?_, ?_⟩
  · rw [runfiles_derived, Path.ofString_render, Path.isWritten_render_iff]
    exact ⟨h, rfl⟩
  · rw [exec_derived, Path.ofString_render, Path.isWritten_render_iff]
    exact hjoin

theorem StandsBelow.sharesNoPath (ha : a.StandsBelow root steps) (hb : b.StandsBelow root steps')
    (h : steps ≠ steps') : a.SharesNoPath b where
  exec := ha.exec.ne hb.exec fun heq => h (List.append_cancel_left heq)
  runfiles := ha.runfiles.ne hb.runfiles h

/-- The directory of a file is one step short of it. -/
theorem StandsBelow.execDir {last : String} (h : a.StandsBelow root (steps ++ [last])) :
    Path.IsWritten a.execDir (Path.ofString root).root
      ((Path.ofString root).components ++ steps) := by
  obtain ⟨p, hexec, hroot, hcomponents⟩ := h.exec
  have hdir : a.execDir = p.parent.render := by rw [Artifact.execDir, ← hexec, Path.ofString_render]
  rw [← List.append_assoc] at hcomponents
  exact ⟨p.parent, hdir.symm, hroot, Path.parent_components_of_concat hcomponents⟩

end Artifact

/-- The directory that the launcher is told to write to is the one of the images. -/
theorem BootAction.mem_directoryFlag_iff {spec : DeviceSpec} {deps : Dependencies}
    {images : Artifact} {properties : Option Artifact} {value : String} :
    flag "generate_output_dir" value ∈ launcherFlags spec deps images properties ↔
      value = images.execDir := by
  simp (disch := decide +kernel) [launcherFlags, flag_eq_flag, flag_ne_of_not_mem]

namespace Outputs

/-- The steps below the package that lead to the files of a target. -/
def stepsFor (name : String) : List (List String) :=
  [ [name], [name ++ "_images", "emulator-meta-data.pb"]
  , [name ++ "_images", "userdata_images.dat"] ]

/-- The files of a target where they belong: the executable in the package, the others in the
directory of the images. -/
structure LaidOut (outputs : Outputs) (name package binRoot : String) : Prop where
  executable : outputs.executable.StandsBelow binRoot ((Path.ofString package).components ++ [name])
  metadata : outputs.metadata.StandsBelow binRoot
    ((Path.ofString package).components ++ [name ++ "_images", "emulator-meta-data.pb"])
  images : outputs.images.StandsBelow binRoot
    ((Path.ofString package).components ++ [name ++ "_images", "userdata_images.dat"])

section

variable {name other package binRoot : String} {outputs : Outputs}

theorem laidOut_forTarget (hpackage : Path.IsRelative package) (hname : Path.IsComponent name) :
    (forTarget name package binRoot).LaidOut name package binRoot := by
  have himages := hname.append (show '/' ∉ "_images".toList by decide)
  have hroot := Path.root_eq_none_iff.2 hpackage
  have hdir : (Path.ofString package / Path.ofString (name ++ "_images")).root = .none :=
    (Path.join_name_root _ himages.not_slash).trans hroot
  have hfile : ∀ file, Path.IsComponent file →
      (Path.ofString package / Path.ofString (name ++ "_images") / Path.ofString file).components =
        (Path.ofString package).components ++ [name ++ "_images", file] := by
    intro file hfile
    rw [Path.join_name_components _ hfile, Path.join_name_components _ himages, List.append_assoc]
    rfl
  refine ⟨?_, ?_, ?_⟩
  · exact Artifact.standsBelow_derived ((Path.join_name_root _ hname.not_slash).trans hroot)
      (Path.join_name_components _ hname)
  · exact Artifact.standsBelow_derived ((Path.join_name_root _ (by decide)).trans hdir)
      (hfile _ (by decide))
  · exact Artifact.standsBelow_derived ((Path.join_name_root _ (by decide)).trans hdir)
      (hfile _ (by decide))

theorem LaidOut.exists_steps (h : outputs.LaidOut name package binRoot) {a : Artifact}
    (ha : a ∈ outputs.filesToBuild) :
    ∃ steps ∈ stepsFor name,
      a.StandsBelow binRoot ((Path.ofString package).components ++ steps) := by
  simp only [filesToBuild, List.mem_cons, List.not_mem_nil, or_false] at ha
  rcases ha with rfl | rfl | rfl
  · exact ⟨_, by simp [stepsFor], h.executable⟩
  · exact ⟨_, by simp [stepsFor], h.metadata⟩
  · exact ⟨_, by simp [stepsFor], h.images⟩

/-- Both files of the images are declared in one directory. -/
theorem LaidOut.execDir_eq (h : outputs.LaidOut name package binRoot) :
    outputs.metadata.execDir = outputs.images.execDir := by
  have hsplit : ∀ file, (Path.ofString package).components ++ [name ++ "_images", file] =
      (Path.ofString package).components ++ [name ++ "_images"] ++ [file] := by simp
  have hmetadata := h.metadata
  have himages := h.images
  rw [hsplit] at hmetadata himages
  obtain ⟨p, hp, hproot, hpnames⟩ := hmetadata.execDir
  obtain ⟨q, hq, hqroot, hqnames⟩ := himages.execDir
  rw [← hp, ← hq, Path.eq_of_parts (hproot.trans hqroot.symm) (hpnames.trans hqnames.symm)]

theorem LaidOut.pairwise (h : outputs.LaidOut name package binRoot) :
    outputs.filesToBuild.Pairwise Artifact.SharesNoPath := by
  simp only [filesToBuild, List.pairwise_cons, List.forall_mem_cons, List.not_mem_nil,
    false_imp_iff, implies_true, and_true, List.Pairwise.nil]
  refine ⟨⟨h.executable.sharesNoPath h.metadata ?_, h.executable.sharesNoPath h.images ?_⟩,
    h.metadata.sharesNoPath h.images ?_⟩ <;>
    simp

theorem stepsFor_disjoint (h : other ≠ name) : ∀ steps ∈ stepsFor name, steps ∉ stepsFor other := by
  have himages : name ++ "_images" ≠ other ++ "_images" := by
    intro heq
    have htext := congrArg String.toList heq
    rw [String.toList_append, String.toList_append] at htext
    exact h (String.toList_inj.1 (List.append_cancel_right htext)).symm
  simp [stepsFor, h.symm, himages]

end

/-- The outputs of a target in a package below an output root. Each is generated; from its runfiles
path and from its exec path the root and the steps can be read off that lead to it. The two files of
the images are in one directory, which is the one that the launcher is told to write to whatever
device it boots. No two outputs share a path, be they of one target or of two in one package. -/
theorem forTarget_layout {name package : String} (hpackage : Path.IsRelative package)
    (hname : Path.IsComponent name) (binRoot : String) :
    (forTarget name package binRoot).LaidOut name package binRoot ∧
    (forTarget name package binRoot).metadata.execDir =
      (forTarget name package binRoot).images.execDir ∧
    (∀ (spec : DeviceSpec) (deps : Dependencies) (properties : Option Artifact) (value : String),
      BootAction.flag "generate_output_dir" value ∈
          BootAction.launcherFlags spec deps (forTarget name package binRoot).images properties ↔
        value = (forTarget name package binRoot).metadata.execDir) ∧
    (forTarget name package binRoot).filesToBuild.Pairwise Artifact.SharesNoPath ∧
    ∀ other, Path.IsComponent other → other ≠ name →
      ∀ a ∈ (forTarget name package binRoot).filesToBuild,
        ∀ b ∈ (forTarget other package binRoot).filesToBuild, a.SharesNoPath b := by
  have hlayout : (forTarget name package binRoot).LaidOut name package binRoot :=
    laidOut_forTarget hpackage hname
  refine ⟨hlayout, hlayout.execDir_eq, ?_, hlayout.pairwise, ?_⟩
  · intro spec deps properties value
    rw [BootAction.mem_directoryFlag_iff, hlayout.execDir_eq]
  · intro other hother hne a ha b hb
    obtain ⟨steps, hsteps, hplace⟩ := hlayout.exists_steps ha
    obtain ⟨steps', hsteps', hplace'⟩ := (laidOut_forTarget hpackage hother).exists_steps hb
    refine hplace.sharesNoPath hplace' fun heq => ?_
    rw [List.append_cancel_left heq] at hsteps
    exact stepsFor_disjoint hne _ hsteps hsteps'

/-- A package that goes up, a root with two slashes, and a name that leads up again. -/
theorem forTarget_layout_above :
    (forTarget ".." ".././/pkg/" "//out/./bin").LaidOut ".." ".././/pkg/" "//out/./bin" ∧
      ∀ a ∈ (forTarget ".." ".././/pkg/" "//out/./bin").filesToBuild,
        ∀ b ∈ (forTarget "phone" ".././/pkg/" "//out/./bin").filesToBuild, a.SharesNoPath b := by
  obtain ⟨hlayout, _, _, _, hother⟩ :=
    @forTarget_layout ".." ".././/pkg/" (by decide) (by decide) "//out/./bin"
  exact ⟨hlayout, hother "phone" (by decide) (by decide)⟩

end Outputs

end EmulatedDevice
