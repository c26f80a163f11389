import EmulatedDevice.Proofs.DescriptorReading
import EmulatedDevice.Proofs.LoadFaults
import EmulatedDevice.Proofs.SharedDocuments

/-!
# One text in files of both notations

The suffix of a file chooses the reader of its text, and nothing behind the reader knows
which one it was. So a device is the same from either file if both readers find the same
mapping in the text, and they do if all its pieces are shared.

The pieces that are not shared are left out because the readers differ in them. For each
kind there is a device that the JSON file declares, and that the YAML file with the same
text does not.
-/

namespace EmulatedDevice.FileTree

section Loading

variable {t u : FileTree} {p q : Path} {text : List Char} {form : DocumentForm} {d : Declaration}

/-- What is loaded from a file with a known text is the mapping that the text writes. -/
theorem loadDocument_eq_ok_iff {document : Value}
    (hform : DocumentForm.ofSuffix? p.suffix = some form) (htext : t.readText p = .ok text) :
    t.loadDocument p = .ok document ↔
      ∃ entries, document = .mapping entries ∧ form.parse text = .ok document := by
  rw [(hasFile_of_readText htext).loadDocument_eq, hform, htext]
  dsimp only [bind, Except.bind]
  cases hparse : form.parse text with
  | error fault => exact ⟨nofun, fun ⟨_, _, h⟩ => nomatch h⟩
  | ok value =>
      cases value with
      | mapping entries =>
          refine ⟨fun h => ⟨entries, ?_, ?_⟩, fun ⟨_, _, h⟩ => h⟩
          · exact (Except.ok.inj h).symm
          · exact h
      | _ =>
          refine ⟨nofun, ?_⟩
          rintro ⟨entries, rfl, h⟩
          cases h

/-- A file with a known text declares what the value of the text is parsed into. -/
theorem loadDeclaration_eq_ok_iff (hform : DocumentForm.ofSuffix? p.suffix = some form)
    (htext : t.readText p = .ok text) :
    t.loadDeclaration p = .ok d ↔
      ∃ document, form.parse text = .ok document ∧ Declaration.parse p.render document = .ok d := by
  constructor
  · intro h
    obtain ⟨document, hdocument, hparse⟩ := exists_of_bind_eq_ok h
    obtain ⟨_, _, hvalue⟩ := (loadDocument_eq_ok_iff hform htext).1 hdocument
    exact ⟨document, hvalue, eq_ok_of_mapError hparse⟩
  · rintro ⟨document, hvalue, hparse⟩
    -- only a mapping is parsed into a device
    obtain ⟨entries, rfl, -⟩ := Declaration.parse_eq_ok_iff.1 hparse
    have hdocument := (loadDocument_eq_ok_iff hform htext).2 ⟨entries, rfl, hvalue⟩
    rw [loadDeclaration, hdocument]
    show (Declaration.parse p.render (.mapping entries)).mapError LoadFault.declaration = .ok d
    rw [hparse]
    rfl

/-- A device that a JSON file declares is declared by a YAML file with the same text, if both
notations read every piece of it alike. -/
theorem loadDeclaration_yaml_of_json (hjson : DocumentForm.ofSuffix? p.suffix = some .json)
    (hyaml : DocumentForm.ofSuffix? q.suffix = some .yaml) (htext : t.readText p = .ok text)
    (hsame : u.readText q = .ok text) (hshared : ∀ piece ∈ Json.pieces text, piece.IsShared)
    (hload : t.loadDeclaration p = .ok d) : u.loadDeclaration q = .ok d := by
  obtain ⟨document, hvalue, hparse⟩ := (loadDeclaration_eq_ok_iff hjson htext).1 hload
  obtain ⟨entries, rfl, hdescribed⟩ := Declaration.parse_eq_ok_iff.1 hparse
  have haccepts : Schema.device.Accepts (.mapping entries) :=
    (Schema.reads_device _).2 ⟨d, entries, rfl, hdescribed⟩
  have hboth : Yaml.parse text = .ok (.mapping entries) :=
    Yaml.parse_eq_of_accepts Schema.tidy_device haccepts (eq_ok_of_mapError hvalue) hshared
  -- a device does not depend on the place of its file, which is told in faults only
  refine (loadDeclaration_eq_ok_iff hyaml hsame).2
    ⟨.mapping entries, ?_, Declaration.parse_eq_ok_iff.2 ⟨entries, rfl, hdescribed⟩⟩
  rw [DocumentForm.parse, hboth]
  rfl

end Loading

/-! ## A phone in two files -/

namespace NotationSample

/-- Two files with one text. -/
def twins (text : List Char) : FileTree where
  nodes :=
    [ (["work"], .directory)
    , (["d.json", "work"], .file (Text.encodeUtf8 text) 0o644)
    , (["d.yaml", "work"], .file (Text.encodeUtf8 text) 0o644) ]
  workingDirectory := ["work"]

/-- A text that declares a device in its JSON file, and in its YAML file another one or none. -/
def ToldApart (text : List Char) : Prop :=
  ∃ d, (twins text).loadDeclaration (.ofString "d.json") = .ok d ∧
    (twins text).loadDeclaration (.ofString "d.yaml") ≠ .ok d

theorem readText_twins {text : List Char} (h : '\r' ∉ text) :
    (twins text).readText (.ofString "d.json") = .ok text ∧
      (twins text).readText (.ofString "d.yaml") = .ok text :=
  ⟨readText_of_find rfl h, readText_of_find rfl h⟩

theorem suffix_json : DocumentForm.ofSuffix? (Path.ofString "d.json").suffix = some .json := by
  decide +kernel

theorem suffix_yaml : DocumentForm.ofSuffix? (Path.ofString "d.yaml").suffix = some .yaml := by
  decide +kernel

/-- The declaration of a phone, with what stands before and behind the colon of its memory, and
with the file of its system image. -/
def phoneText (before : List Char) (behind file : String) : List Char :=
  "\x7b \"ram\"".toList ++ before ++
    [ ":", behind, ", \"system_image\"", ":\x7b\"files\":", "[\"", file, "\"]", ", \"label\":"
    , "\"i\"\x7d,\n", "\"name\":", "\"phone\",", "\"cache\":32,", "\"vm_heap\":16,"
    , "\"screen_density\"", ":160, ", "\"horizontal_resolution\"", ":320,"
    , "\"vertical_resolution\"", ":240\x7d" ].flatMap String.toList

/-- A phone all pieces of which are shared, with an exponent, a line break and escapes, and with a
word for no number where another value comes later. -/
def sharedText : List Char :=
  phoneText [' '] "\n 5.12e+2, \"system_image\": [NaN]" "\\u0061\\/b  é"

/-- Phones with one piece each that is not shared. -/
def unsharedTexts : List (List Char) :=
  -- a tab, a line break before a colon, one in a name, and a colon too far behind its name
  [ phoneText [] "\t512" "a"
  , phoneText ['\n'] "512" "a"
  , phoneText [] "512, \"system_image\": \x7b\"\u2028\": 0\x7d" "a"
  , phoneText (List.replicate 1024 ' ') "512" "a"
  -- exponents without a point or a sign
  , phoneText [] "512e+0" "a"
  , phoneText [] "5.12e2" "a"
  -- a character that has no place in YAML, and characters that are breaks there
  , phoneText [] "512" "\x7f"
  , phoneText [] "512" "\u0085b"
  , phoneText [] "512" "a \u2028b"
  , phoneText [] "512" "a\u2028 b"
  , phoneText [] "512" "a\u2029--- b"
  -- two escapes for one character
  , phoneText [] "512" "\\ud83d\\ude00" ]

/-- The device that a text declares in a notation, if there is one. -/
def declared? (form : DocumentForm) (text : List Char) : Option Declaration :=
  (form.parse text).toOption.bind fun document => (Declaration.parse "" document).toOption

theorem toOption_eq_some_iff {ε α : Type} {x : Except ε α} {a : α} :
    x.toOption = some a ↔ x = .ok a := by
  cases x <;> simp [Except.toOption]

theorem loadDeclaration_iff_declared? {t : FileTree} {p : Path} {text : List Char}
    {form : DocumentForm} {d : Declaration} (hform : DocumentForm.ofSuffix? p.suffix = some form)
    (htext : t.readText p = .ok text) :
    t.loadDeclaration p = .ok d ↔ declared? form text = some d := by
  simp only [loadDeclaration_eq_ok_iff hform htext, declared?, Option.bind_eq_some_iff,
    toOption_eq_some_iff, Declaration.parse_eq_ok_iff]

end NotationSample

open NotationSample

/-- The phone with shared pieces is the same device from both files. -/
theorem loadDeclaration_twins_shared :
    (∀ piece ∈ Json.pieces sharedText, piece.IsShared) ∧
      ∃ d, (twins sharedText).loadDeclaration (.ofString "d.json") = .ok d ∧
        (twins sharedText).loadDeclaration (.ofString "d.yaml") = .ok d := by
  obtain ⟨htext, hsame⟩ := readText_twins (show '\r' ∉ sharedText by decide +kernel)
  have hshared : ∀ piece ∈ Json.pieces sharedText, piece.IsShared := by decide +kernel
  obtain ⟨d, hd⟩ : ∃ d, declared? .json sharedText = some d :=
    Option.isSome_iff_exists.1 (by decide +kernel)
  have hload := (loadDeclaration_iff_declared? suffix_json htext).2 hd
  exact ⟨hshared, d, hload,
    loadDeclaration_yaml_of_json suffix_json suffix_yaml htext hsame hshared hload⟩

/-- None of the phones with a piece that is not shared is the same device from both files. -/
theorem loadDeclaration_twins_unshared : unsharedTexts.Forall ToldApart := by
  have hdiffer : ∀ text ∈ unsharedTexts, '\r' ∉ text ∧
      (declared? .json text).isSome = true ∧ declared? .yaml text ≠ declared? .json text := by
    decide +kernel
  refine List.forall_iff_forall_mem.2 fun text hmem => ?_
  obtain ⟨hreturn, hsome, hne⟩ := hdiffer text hmem
  obtain ⟨htext, hsame⟩ := readText_twins hreturn
  obtain ⟨d, hd⟩ := Option.isSome_iff_exists.1 hsome
  refine ⟨d, (loadDeclaration_iff_declared? suffix_json htext).2 hd, fun hyaml => hne ?_⟩
  rw [hd, (loadDeclaration_iff_declared? suffix_yaml hsame).1 hyaml]

end EmulatedDevice.FileTree
