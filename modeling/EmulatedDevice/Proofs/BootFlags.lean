import EmulatedDevice.Proofs.Numerals
import EmulatedDevice.Proofs.RunfilesTree

/-!
# What a boot command line tells

The launcher learns about a device from its command line alone, so two devices with
one command line are booted alike. Here the line is read back. It has its flags in
fixed places, so every flag can be compared with its counterpart. A number is read
from its digits, two numbers with an `x` between them from theirs, and a list of
files from the text between its delimiters, as long as no delimiter stands in the
path of a file. An empty list is not mistaken for a list of one file, because the
path of a file is never empty.

The default properties come last, and their flag is there just when they are.
-/

namespace EmulatedDevice

/-! ## Lists with delimiters -/

/-- What a text holds between its delimiters; nothing between two of them is no item. -/
def itemsOf (delimiter : Char) (text : String) : List (List Char) :=
  (text.toList.splitOn delimiter).filter fun item => !item.isEmpty

/-- A text that is not empty and holds no delimiter. -/
def IsItem (delimiter : Char) (text : String) : Prop :=
  text ≠ "" ∧ delimiter ∉ text.toList

theorem itemsOf_intercalate {delimiter : Char} {items : List String}
    (h : ∀ item ∈ items, IsItem delimiter item) :
    itemsOf delimiter ((String.singleton delimiter).intercalate items) =
      items.map String.toList := by
  unfold itemsOf
  rw [String.toList_intercalate, String.toList_singleton]
  by_cases hnil : items = []
  · rw [hnil]
    rfl
  · rw [List.splitOn_intercalate delimiter, List.filter_eq_self]
    · intro text htext
      obtain ⟨item, hitem, rfl⟩ := List.mem_map.1 htext
      have hne := (h item hitem).1
      simpa using hne
    · intro text htext
      obtain ⟨item, hitem, rfl⟩ := List.mem_map.1 htext
      exact (h item hitem).2
    · simpa using hnil

theorem Path.render_ne_empty (p : Path) : p.render ≠ "" := by
  unfold render
  split
  · decide
  · next h =>
    intro hempty
    obtain ⟨hroot, hnames⟩ := String.append_eq_empty_iff.1 hempty
    have hmarker : p.root = .none := by
      cases hmarker : p.root <;> simp_all [RootMarker.text]
    obtain ⟨first, rest, hcomponents⟩ := List.exists_cons_of_ne_nil fun hnil => h ⟨hmarker, hnil⟩
    have hfirst : first ≠ "" := (p.isComponent first (hcomponents ▸ List.mem_cons_self ..)).1
    rw [hcomponents] at hnames
    cases rest with
    | nil => exact hfirst (by simpa using hnames)
    | cons second rest => simp [hfirst] at hnames

namespace Artifact

theorem HasOrigin.exec_ne_empty {a : Artifact} (h : a.HasOrigin) : a.exec ≠ "" := by
  obtain ⟨_, h⟩ := h
  cases h with
  | source path => exact Path.render_ne_empty _
  | derived root path => exact Path.render_ne_empty _

/-- Files that a delimiter keeps apart. -/
def Separated (delimiter : Char) (as : List Artifact) : Prop :=
  ∀ a ∈ as, a.HasOrigin ∧ delimiter ∉ a.exec.toList

/-- Files that are kept apart can be read from the text that lists them. -/
theorem joinExec_inj {delimiter : Char} {as bs : List Artifact} (has : Separated delimiter as)
    (hbs : Separated delimiter bs) :
    joinExec (String.singleton delimiter) as = joinExec (String.singleton delimiter) bs ↔
      as.map exec = bs.map exec := by
  have hitems : ∀ cs, Separated delimiter cs →
      itemsOf delimiter (joinExec (String.singleton delimiter) cs) =
        (cs.map exec).map String.toList := by
    intro cs hcs
    refine itemsOf_intercalate fun item hitem => ?_
    obtain ⟨c, hc, rfl⟩ := List.mem_map.1 hitem
    exact ⟨(hcs c hc).1.exec_ne_empty, (hcs c hc).2⟩
  constructor
  · intro h
    have heq := congrArg (itemsOf delimiter) h
    rw [hitems as has, hitems bs hbs] at heq
    exact List.map_injective_iff.2 (fun _ _ => String.toList_inj.1) heq
  · intro h
    rw [joinExec, joinExec, h]

end Artifact

/-! ## The flags -/

theorem DeviceSpec.screenSize_inj {spec spec' : DeviceSpec} :
    spec.screenSize = spec'.screenSize ↔
      spec.horizontalResolution = spec'.horizontalResolution ∧
        spec.verticalResolution = spec'.verticalResolution := by
  have hitems : ∀ s : DeviceSpec, itemsOf 'x' s.screenSize =
      [toString s.horizontalResolution, toString s.verticalResolution].map String.toList := by
    intro s
    have hsize : s.screenSize = (String.singleton 'x').intercalate
        [toString s.horizontalResolution, toString s.verticalResolution] := by
      rw [String.intercalate_cons_cons, String.intercalate_singleton]
      rfl
    rw [hsize]
    refine itemsOf_intercalate fun item hitem => ?_
    simp only [List.mem_cons, List.not_mem_nil, or_false] at hitem
    rcases hitem with rfl | rfl
    · exact ⟨Numeral.toString_ne_empty _, Numeral.not_mem_toString rfl (by decide) _⟩
    · exact ⟨Numeral.toString_ne_empty _, Numeral.not_mem_toString rfl (by decide) _⟩
  constructor
  · intro h
    have heq := congrArg (itemsOf 'x') h
    rw [hitems, hitems] at heq
    simp only [List.map_cons, List.map_nil, List.cons.injEq, String.toList_inj,
      Numeral.toString_inj, and_true] at heq
    exact heq
  · rintro ⟨hhorizontal, hvertical⟩
    rw [screenSize, hhorizontal, hvertical, screenSize]

/-- The files that stand in the lists of a boot command line are kept apart by the delimiters. -/
structure Dependencies.Separated (deps : Dependencies) : Prop where
  images : Artifact.Separated ' ' deps.image.images
  biosFiles : Artifact.Separated ',' deps.tools.biosFiles
  apks : Artifact.Separated ',' deps.apks

namespace BootAction

theorem flag_inj {name value value' : String} :
    flag name value = flag name value' ↔ value = value' :=
  String.append_right_inj _

/-- The flag of the default properties is there just when they are. -/
theorem propertiesFlag_inj {name : String} {properties properties' : Option Artifact} :
    (properties.map fun a => flag name a.exec).toList =
        (properties'.map fun a => flag name a.exec).toList ↔
      properties.map Artifact.exec = properties'.map Artifact.exec := by
  cases properties <;> cases properties' <;> simp [flag_inj]

variable {spec spec' : DeviceSpec} {deps deps' : Dependencies} {images images' : Artifact}
  {properties properties' : Option Artifact}

/-- Boot command lines are the same just when they are made for the same six numbers, the same
directory of images, the same path of every single file, and the same paths in every list, in their
order, and when both or neither have default properties. -/
theorem launcherFlags_inj (hdeps : deps.Separated) (hdeps' : deps'.Separated) :
    launcherFlags spec deps images properties = launcherFlags spec' deps' images' properties' ↔
      spec = spec' ∧ images.execDir = images'.execDir ∧
      deps.image.properties.exec = deps'.image.properties.exec ∧
      deps.tools.adb.exec = deps'.tools.adb.exec ∧
      deps.tools.emulatorX86.exec = deps'.tools.emulatorX86.exec ∧
      deps.tools.emulatorArm.exec = deps'.tools.emulatorArm.exec ∧
      deps.tools.adbStatic.exec = deps'.tools.adbStatic.exec ∧
      deps.tools.mksdcard.exec = deps'.tools.mksdcard.exec ∧
      deps.tools.emptySnapshot.exec = deps'.tools.emptySnapshot.exec ∧
      deps.tools.sdkPath.exec = deps'.tools.sdkPath.exec ∧
      deps.image.images.map Artifact.exec = deps'.image.images.map Artifact.exec ∧
      deps.tools.biosFiles.map Artifact.exec = deps'.tools.biosFiles.map Artifact.exec ∧
      deps.apks.map Artifact.exec = deps'.apks.map Artifact.exec ∧
      properties.map Artifact.exec = properties'.map Artifact.exec := by
  have himages := Artifact.joinExec_inj hdeps.images hdeps'.images
  have hbios := Artifact.joinExec_inj hdeps.biosFiles hdeps'.biosFiles
  have hapks := Artifact.joinExec_inj hdeps.apks hdeps'.apks
  have hspec : spec = spec' ↔ spec.screenDensity = spec'.screenDensity ∧ spec.ram = spec'.ram ∧
      spec.cache = spec'.cache ∧ spec.vmHeap = spec'.vmHeap ∧
      spec.screenSize = spec'.screenSize := by
    constructor
    · rintro rfl
      exact ⟨rfl, rfl, rfl, rfl, rfl⟩
    · rintro ⟨hdensity, hram, hcache, hheap, hsize⟩
      obtain ⟨hhorizontal, hvertical⟩ := DeviceSpec.screenSize_inj.1 hsize
      cases spec
      cases spec'
      simp_all only
  -- flag by flag, in the order of the line
  simp only [launcherFlags, List.cons_append, List.nil_append, List.cons.injEq, flag_inj,
    propertiesFlag_inj, Numeral.toString_inj, true_and]
  constructor
  · rintro ⟨hdensity, hram, hcache, hheap, hdir, hsize, hproperties, himage, hadb, hx86, harm,
      hstatic, hcard, hsnapshot, hbiosFiles, hsdk, hpackages, hdefault⟩
    exact ⟨hspec.2 ⟨hdensity, hram, hcache, hheap, hsize⟩, hdir, hproperties, hadb, hx86, harm,
      hstatic, hcard, hsnapshot, hsdk, himages.1 himage, hbios.1 hbiosFiles, hapks.1 hpackages,
      hdefault⟩
  · rintro ⟨hsame, hdir, hproperties, hadb, hx86, harm, hstatic, hcard, hsnapshot, hsdk, himage,
      hbiosFiles, hpackages, hdefault⟩
    obtain ⟨hdensity, hram, hcache, hheap, hsize⟩ := hspec.1 hsame
    exact ⟨hdensity, hram, hcache, hheap, hdir, hsize, hproperties, himages.2 himage, hadb, hx86,
      harm, hstatic, hcard, hsnapshot, hbios.2 hbiosFiles, hsdk, hapks.2 hpackages, hdefault⟩

/-- What a device with some APKs depends on. -/
def apkDependencies (apks : List Artifact) : Dependencies :=
  let tools := CommandLine.Lower.sampleTools
  let image := ⟨"i", .source "source.properties", [.source "kernel", .source "system.img"]⟩
  ⟨tools, image, .source "r", .source "googletest.sh", apks, tools.common image apks⟩

theorem apkDependencies_separated {apks : List Artifact} (h : Artifact.Separated ',' apks) :
    (apkDependencies apks).Separated where
  images := by
    simp only [apkDependencies, Artifact.Separated, List.forall_mem_cons]
    exact ⟨⟨⟨_, .source _⟩, by decide +kernel⟩, ⟨⟨_, .source _⟩, by decide +kernel⟩, nofun⟩
  biosFiles := nofun
  apks := h

/-- A generated APK and a source file in its place cannot be told apart, no APK and one APK can. -/
theorem launcherFlags_inj_apks :
    (apkDependencies [.source "bin/app.apk"]).Separated ∧
    (apkDependencies [.derived "bin" "app.apk"]).Separated ∧
    (apkDependencies []).Separated ∧
    launcherFlags ⟨320, 240, 512, 160, 32, 16⟩ (apkDependencies [.source "bin/app.apk"])
        (.derived "bin" "images/a") none =
      launcherFlags ⟨320, 240, 512, 160, 32, 16⟩ (apkDependencies [.derived "bin" "app.apk"])
        (.derived "bin" "images/b") none ∧
    launcherFlags ⟨320, 240, 512, 160, 32, 16⟩ (apkDependencies [.source "bin/app.apk"])
        (.derived "bin" "images/a") none ≠
      launcherFlags ⟨320, 240, 512, 160, 32, 16⟩ (apkDependencies [])
        (.derived "bin" "images/a") none := by
  have hsource : (apkDependencies [.source "bin/app.apk"]).Separated :=
    apkDependencies_separated (List.forall_mem_singleton.2 ⟨⟨_, .source _⟩, by decide +kernel⟩)
  have hderived : (apkDependencies [.derived "bin" "app.apk"]).Separated :=
    apkDependencies_separated (List.forall_mem_singleton.2 ⟨⟨_, .derived _ _⟩, by decide +kernel⟩)
  have hnone : (apkDependencies []).Separated := apkDependencies_separated nofun
  refine ⟨hsource, hderived, hnone, (launcherFlags_inj hsource hderived).2 ?_, fun h => ?_⟩
  · exact ⟨rfl, by decide +kernel, rfl, rfl, rfl, rfl, rfl, rfl, rfl, rfl, rfl, rfl,
      by decide +kernel, rfl⟩
  · obtain ⟨_, _, _, _, _, _, _, _, _, _, _, _, hapks, _⟩ := (launcherFlags_inj hsource hnone).1 h
    cases hapks

end BootAction

end EmulatedDevice
