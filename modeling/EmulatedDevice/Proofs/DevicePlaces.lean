import EmulatedDevice.Outputs
import EmulatedDevice.Proofs.DeviceNames
import EmulatedDevice.Proofs.WrittenPaths

/-!
# Where the files of a device go

The name of a device is put behind two directories: the one that its script is
written to, and the one of its package below the root of generated files. A name
without a slash can only do three things there. It is the name of an entry, or it
is `.` and stands for the directory itself, or it is `..` and stands for the
directory above.

The schema asks for one or more name characters. That keeps slashes out, so a
declared name does no fourth thing. It does not keep out the two names that are
nothing but dots, and it lets one newline stand at the end.
-/

namespace EmulatedDevice

namespace Path

variable {name : String}

/-! ## Behind a directory -/

/-- A path to the entry of a directory that has a name. -/
structure IsEntry (directory : Path) (name : String) (p : Path) : Prop where
  last : p.name = name
  parent : p.parent = directory
  place : ∀ t : FileTree, t.placeOf p = name :: t.placeOf directory

/-- A path to the directory that a directory lies in. -/
structure IsAbove (directory p : Path) : Prop where
  root : p.root = directory.root
  components : p.components = directory.components ++ [".."]
  place : ∀ t : FileTree, t.placeOf p = (t.placeOf directory).tail

/-- What a name can stand for in a directory. -/
structure StandsFor (directory : Path) (name : String) (p : Path) : Prop where
  entry : name ≠ "." → name ≠ ".." → IsEntry directory name p
  here : name = "." → p = directory
  above : name = ".." → IsAbove directory p

/-- A name leads one step on from where the directory is. -/
theorem placeOf_join_name (t : FileTree) (directory : Path) (h : IsComponent name) :
    t.placeOf (directory / ofString name) = FileTree.stepFrom (t.placeOf directory) name := by
  rw [FileTree.placeOf, t.startOf_join_name directory h.not_slash,
    join_name_components directory h, List.foldl_append]
  rfl

theorem isEntry_join (directory : Path) (h : IsEntryName name) :
    IsEntry directory name (directory / ofString name) := by
  refine ⟨?_, parent_join_name directory h.1, fun t => ?_⟩
  · rw [Path.name, FileTree.getLast?_entry directory h]
    rfl
  · rw [placeOf_join_name t directory h.1, FileTree.stepFrom, if_neg h.2]

theorem isAbove_join (directory : Path) : IsAbove directory (directory / ofString "..") where
  root := join_name_root directory (by decide)
  components := join_name_components directory (by decide)
  place t := placeOf_join_name t directory (by decide)

theorem standsFor_join (directory : Path) (hne : name ≠ "") (hslash : '/' ∉ name.toList) :
    StandsFor directory name (directory / ofString name) where
  entry hhere habove := isEntry_join directory ⟨⟨hne, hhere, hslash⟩, habove⟩
  here := by
    rintro rfl
    exact join_here directory
  above := by
    rintro rfl
    exact isAbove_join directory

end Path

/-- The executable of a device is its name behind the package behind the root. -/
theorem Outputs.ofString_executable (name package binRoot : String) :
    Path.ofString (forTarget name package binRoot).executable.exec =
      Path.ofString binRoot / Path.ofString package / Path.ofString name := by
  simp only [forTarget, Artifact.derived, Path.ofString_render, Path.join_assoc]

/-! ## Names that the schema lets through -/

instance (c : Char) : Decidable (Value.IsNameChar c) :=
  decidable_of_iff _ Schema.isNameChar_iff

/-- A name of name characters that an entry of a directory can have. -/
structure IsSafeName (name : String) : Prop where
  nonempty : name ≠ ""
  chars : ∀ c ∈ name.toList, Value.IsNameChar c
  ne_here : name ≠ "."
  ne_above : name ≠ ".."

/-- A name with nothing wrong but that it is no safe one. -/
inductive IsOddName : String → Prop where
  | here : IsOddName "."
  | above : IsOddName ".."
  | line {core : String} (hcore : core ≠ "") (hchars : ∀ c ∈ core.toList, Value.IsNameChar c) :
    IsOddName (core ++ "\n")

theorem IsOddName.not_isSafeName {name : String} (h : IsOddName name) : ¬ IsSafeName name := by
  intro hsafe
  cases h with
  | here => exact hsafe.ne_here rfl
  | above => exact hsafe.ne_above rfl
  | line =>
      exact absurd (hsafe.chars '\n' (by simp)) (by decide)

namespace Schema

theorem isName_of_chars {core : String} (hcore : core ≠ "")
    (hchars : ∀ c ∈ core.toList, Value.IsNameChar c) :
    isName core = true ∧ isName (core ++ "\n") = true := by
  have hne : core.toList ≠ [] := fun hnil => hcore (String.toList_eq_nil_iff.1 hnil)
  refine ⟨isName_iff.2 ⟨rfl, _, hne, hchars, .inl rfl⟩, isName_iff.2 ⟨rfl, _, hne, hchars, .inr ?_⟩⟩
  rw [String.toList_append]
  rfl

/-- The schema lets safe names through, and three kinds of odd ones. -/
theorem isName_iff_safe_or_odd {name : String} :
    isName name = true ↔ IsSafeName name ∨ IsOddName name := by
  constructor
  · intro h
    obtain ⟨_, core, hcore, hchars, hname | hname⟩ := isName_iff.1 h
    · by_cases hhere : name = "."
      · exact .inr (hhere ▸ .here)
      · by_cases habove : name = ".."
        · exact .inr (habove ▸ .above)
        · exact .inl ⟨ne_empty_of_isName h, hname ▸ hchars, hhere, habove⟩
    · have heq : name = .ofList core ++ "\n" := by
        rw [← String.toList_inj, hname, String.toList_append, String.toList_ofList]
        rfl
      rw [heq]
      refine .inr (.line (fun hnil => hcore ?_) (by rwa [String.toList_ofList]))
      rw [← String.toList_ofList (l := core), hnil]
      rfl
  · rintro (hsafe | hodd)
    · exact (isName_of_chars hsafe.nonempty hsafe.chars).1
    · cases hodd with
      | here => decide
      | above => decide
      | line hcore hchars => exact (isName_of_chars hcore hchars).2

end Schema

/-! ## Declared names -/

/-- The name of a declaration is a safe one or odd in one of three ways, and behind either directory
it leads to the entry with just this name, unless it is one of the two names for the directory
itself and for the one above. -/
theorem declared_name_places {place : String} {document : Value} {d : Declaration}
    (h : Declaration.parse place document = .ok d) (directory : Path) (package binRoot : String) :
    (IsSafeName d.name ∨ IsOddName d.name) ∧
    directory.StandsFor d.name (scriptPath directory d.name) ∧
    (Path.ofString binRoot / Path.ofString package).StandsFor d.name
      (.ofString (Outputs.forTarget d.name package binRoot).executable.exec) := by
  have hname := Declaration.isName_of_parse h
  have hne := Schema.ne_empty_of_isName hname
  have hslash := Schema.no_slash_of_isName hname
  rw [Outputs.ofString_executable]
  exact ⟨Schema.isName_iff_safe_or_odd.1 hname, Path.standsFor_join _ hne hslash,
    Path.standsFor_join _ hne hslash⟩

/-- A document with nothing special in it but its name. -/
def nameDocument (name : String) : Value :=
  .ofFields
    [ ("name", .text name), ("horizontal_resolution", .int 320), ("vertical_resolution", .int 240)
    , ("ram", .int 512), ("screen_density", .int 160), ("cache", .int 32), ("vm_heap", .int 16)
    , ("system_image",
        .ofFields [("label", .text "i"), ("files", .ofTexts ["source.properties"])]) ]

def namedDeclaration (name : String) : Declaration where
  name := name
  spec := ⟨320, 240, 512, 160, 32, 16⟩
  systemImage := ⟨"i", [.source "source.properties"]⟩
  defaultProperties := none
  apks := []
  tags := []
  executionInfo := []

/-- Whatever name the schema lets through, a document can declare it. -/
theorem parse_nameDocument {name : String} (h : Schema.isName name = true) (place : String) :
    Declaration.parse place (nameDocument name) = .ok (namedDeclaration name) := by
  have himage : FileGroup.DescribedBy
      [(.text "label", .text "i"), (.text "files", .list [.text "source.properties"])]
      ⟨"i", [.source "source.properties"]⟩ :=
    ⟨by simp [Value.HasOnly], ⟨_, rfl, rfl, by decide⟩,
      ⟨_, rfl, _, rfl, .cons (.source ⟨rfl, by decide⟩) .nil⟩⟩
  refine Declaration.parse_eq_ok_iff.2 ⟨_, rfl, ?_⟩
  exact
    { known := by simp [Value.HasOnly, Declaration.keys]
      name := ⟨_, rfl, Schema.isName_iff.1 h⟩
      spec := fun subject => by cases subject <;> exact ⟨_, rfl, .int _⟩
      systemImage := ⟨_, rfl, _, rfl, himage⟩
      defaultProperties := .inl ⟨rfl, rfl⟩
      apks := .inl ⟨rfl, rfl⟩
      tags := .inl ⟨rfl, rfl⟩
      executionInfo := rfl }

/-- A device called `..` stands for the directory above, for the script and for the executable. -/
theorem above_places :
    Declaration.parse "up.json" (nameDocument "..") = .ok (namedDeclaration "..") ∧
      (Path.ofString "out").StandsFor ".." (scriptPath (.ofString "out") "..") ∧
      (Path.ofString "bin" / Path.ofString "pkg").StandsFor ".."
        (.ofString (Outputs.forTarget ".." "pkg" "bin").executable.exec) := by
  have hparse := @parse_nameDocument ".." (by decide) "up.json"
  obtain ⟨_, hscript, hexecutable⟩ := declared_name_places hparse (.ofString "out") "pkg" "bin"
  exact ⟨hparse, hscript, hexecutable⟩

/-- A document can declare an odd name as well. -/
theorem IsOddName.declared {name : String} (h : IsOddName name) (place : String) :
    Declaration.parse place (nameDocument name) = .ok (namedDeclaration name) ∧
      ¬ IsSafeName name :=
  ⟨parse_nameDocument (Schema.isName_iff_safe_or_odd.2 (.inr h)) place, h.not_isSafeName⟩

/-- A line and the two names of dots are declared, and they are no safe names. -/
theorem odd_names_declared :
    (Declaration.parse "nl.json" (nameDocument "phone\n") = .ok (namedDeclaration "phone\n") ∧
      ¬ IsSafeName "phone\n") ∧
    (Declaration.parse "dot.json" (nameDocument ".") = .ok (namedDeclaration ".") ∧
      ¬ IsSafeName ".") ∧
    (Declaration.parse "up.json" (nameDocument "..") = .ok (namedDeclaration "..") ∧
      ¬ IsSafeName "..") := by
  have hphone : "phone".toList.all Schema.isNameChar = true := by decide
  have hline : IsOddName ("phone" ++ "\n") :=
    .line (by decide) fun c hc => Schema.isNameChar_iff.1 (List.all_eq_true.1 hphone c hc)
  exact ⟨hline.declared _, IsOddName.here.declared _, IsOddName.above.declared _⟩

end EmulatedDevice
