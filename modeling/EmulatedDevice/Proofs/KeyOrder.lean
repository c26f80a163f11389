import EmulatedDevice.Proofs.DescriptorReading
import EmulatedDevice.Proofs.ReorderedValues
import EmulatedDevice.Proofs.ToolchainDocuments
import EmulatedDevice.Proofs.Violations
import EmulatedDevice.Proofs.WritableValues

/-!
# The order of keys does not matter

Both the checker and the reader go through mappings, and neither depends on the order
of the keys. The checker finds violations at the same places, by induction over the
schema; and whatever relation says what a value stands for says the same of a value
that is alike. So two documents that differ in the order of keys are both accepted, and
stand for the same, or both refused for violations at the same places.

The violations themselves may differ: a complaint shows the value it is about, and that
shows the order.
-/

namespace EmulatedDevice

open Value

theorem Value.IsWhole.isScalar {value : Value} {n : Int} (h : value.IsWhole n) :
    value.isScalar = true := by
  cases h <;> rfl

/-! ## Where violations are found -/

namespace Schema

variable {schema : Schema} {v w : Value} {entries entries' : List (Value × Value)}

/-- What the order of keys leaves of a violation: where it is, and whether it can be said. -/
def Violation.mark (v : Violation) : List Step × Bool :=
  (v.path, v.complaint.isWritable)

/-- A mark seen from one step further out. -/
def markUnder (step : Step) (mark : List Step × Bool) : List Step × Bool :=
  (step :: mark.1, mark.2)

/-- The marks of all that is wrong with a value. -/
def marks (schema : Schema) (value : Value) : List (List Step × Bool) :=
  (schema.violations value).map Violation.mark

theorem accepts_iff_marks_eq_nil : schema.Accepts v ↔ schema.marks v = [] :=
  List.map_eq_nil_iff.symm

theorem canReport_iff_marks : schema.CanReport v ↔ ∀ mark ∈ schema.marks v, mark.2 = true := by
  rw [marks, List.forall_mem_map]
  rfl

theorem map_path_eq (vs : List Violation) :
    vs.map Violation.path = (vs.map Violation.mark).map Prod.fst := by
  rw [List.map_map]
  rfl

theorem ofKind_iff_of_alike (h : v.Alike w) : schema.OfKind v ↔ schema.OfKind w := by
  cases h.form with
  | scalar => exact Iff.rfl
  | list =>
      constructor <;> intro hkind <;> cases hkind with
      | list => exact .list _ _
      | whole hwhole => cases hwhole
  | mapping =>
      constructor <;> intro hkind <;> cases hkind with
      | mapping => exact .mapping _ _ _
      | whole hwhole => cases hwhole

/-- A complaint that shows nothing but the values themselves can be made of both or of neither. -/
theorem marks_complain {complaint complaint' : Complaint}
    (h : complaint.isWritable = complaint'.isWritable) :
    (complain complaint).map Violation.mark = (complain complaint').map Violation.mark :=
  congrArg (fun writable => [([], writable)]) h

/-- Values of the wrong kind have one violation, at the values themselves. -/
theorem marks_eq_of_ofKind {kind : String} (hkind : schema.kind? = some kind) (h : v.Alike w)
    (hof : schema.OfKind v → schema.marks v = schema.marks w) :
    schema.marks v = schema.marks w := by
  by_cases hv : schema.OfKind v
  · exact hof hv
  · rw [marks, marks, violations_of_not_ofKind hkind hv,
      violations_of_not_ofKind hkind fun hw => hv ((ofKind_iff_of_alike h).2 hw)]
    exact marks_complain h.reordered.isWritable_eq

theorem marks_under (vs : List Violation) (step : Step) :
    (vs.map (.under step)).map Violation.mark = (vs.map Violation.mark).map (markUnder step) := by
  rw [List.map_map, List.map_map]
  rfl

theorem marks_list (items : Schema) (values : List Value) :
    (list items).marks (.list values) =
      (values.map items.marks).zipIdx.flatMap fun (marks, i) =>
        marks.map (markUnder (.index i)) := by
  show (values.zipIdx.flatMap fun entry =>
    (items.violations entry.1).map (.under (.index entry.2))).map Violation.mark = _
  rw [List.map_flatMap, List.zipIdx_map, List.flatMap_map]
  exact List.flatMap_congr fun entry _ => marks_under _ _

theorem marks_unknownKeys (known : List String) (entries : List (Value × Value)) :
    (unknownKeyViolations known entries).map Violation.mark =
      if (entries.map Prod.fst).any (isUnknown known) then
        [([], ((entries.map Prod.fst).filter (isUnknown known)).all isWritable)]
      else [] := by
  have hperm := (isStableSort_unknownKeys known entries).perm
  unfold unknownKeyViolations
  split
  · next hnil =>
    rw [hnil, List.nil_perm, List.filter_eq_nil_iff] at hperm
    rw [if_neg fun hany => ?_]
    · rfl
    · obtain ⟨key, hkey, hunknown⟩ := List.any_eq_true.1 hany
      exact hperm key hkey hunknown
  · next hne =>
    rw [if_pos]
    · rw [← hperm.all_eq]
      rfl
    · obtain ⟨key, hkey⟩ := List.exists_mem_of_ne_nil _ hne
      obtain ⟨hkey, hunknown⟩ := List.mem_filter.1 (hperm.mem_iff.1 hkey)
      exact List.any_eq_true.2 ⟨key, hkey, hunknown⟩

theorem marks_missingKeys (required : List String) (entries : List (Value × Value)) :
    (missingKeyViolations required entries).map Violation.mark =
      (required.filter fun key => (field? key entries).isNone).map fun _ => ([], true) := by
  rw [missingKeyViolations, List.map_map]
  rfl

theorem isNone_field?_of_alike (h : AlikeEntries entries entries') (key : String) :
    (field? key entries).isNone = (field? key entries').isNone := by
  have hfield := h.fields key
  generalize field? key entries = part, field? key entries' = part' at hfield
  cases hfield <;> rfl

theorem marks_properties {properties : List (String × Schema)} (h : AlikeEntries entries entries')
    (hparts : ∀ property ∈ properties, ∀ {v w : Value}, v.Alike w →
      property.2.marks v = property.2.marks w) :
    (propertyViolations properties entries).map Violation.mark =
      (propertyViolations properties entries').map Violation.mark := by
  rw [propertyViolations_eq_flatMap, propertyViolations_eq_flatMap, List.map_flatMap,
    List.map_flatMap]
  refine List.flatMap_congr fun property hproperty => ?_
  have hfield := h.fields property.1
  generalize field? property.1 entries = part, field? property.1 entries' = part' at hfield
  cases hfield with
  | none => rfl
  | some halike =>
      simp only [Option.toList_some, List.flatMap_singleton]
      rw [marks_under, marks_under]
      exact congrArg _ (hparts property hproperty halike)

theorem marks_eq_list {items : Schema} {values values' : List Value}
    (h : List.Forall₂ Alike values values')
    (hitems : ∀ {v w : Value}, v.Alike w → items.marks v = items.marks w) :
    (list items).marks (.list values) = (list items).marks (.list values') := by
  rw [marks_list, marks_list]
  have hmarks : values.map items.marks = values'.map items.marks := by
    induction h with
    | nil => rfl
    | cons hfirst _ ih => exact congrArg₂ List.cons (hitems hfirst) ih
  rw [hmarks]

theorem marks_eq_record {required : List String} {properties : List (String × Schema)}
    (h : AlikeEntries entries entries')
    (hparts : ∀ property ∈ properties, ∀ {v w : Value}, v.Alike w →
      property.2.marks v = property.2.marks w) :
    (record required properties).marks (.mapping entries) =
      (record required properties).marks (.mapping entries') := by
  show (unknownKeyViolations _ entries ++ missingKeyViolations required entries
      ++ propertyViolations properties entries).map Violation.mark =
    (unknownKeyViolations _ entries' ++ missingKeyViolations required entries'
      ++ propertyViolations properties entries').map Violation.mark
  simp only [List.map_append, marks_unknownKeys, marks_missingKeys, isNone_field?_of_alike h,
    h.keys.any_eq, (h.keys.filter _).all_eq, marks_properties h hparts]

theorem fitsAny_eq_of_alike {alternatives : List Schema}
    (h : ∀ schema ∈ alternatives, schema.marks v = schema.marks w) :
    fitsAny alternatives v = fitsAny alternatives w := by
  rw [Bool.eq_iff_iff, fitsAny_iff, fitsAny_iff]
  refine exists_congr fun schema => and_congr_right fun hschema => ?_
  rw [accepts_iff_marks_eq_nil, accepts_iff_marks_eq_nil, h schema hschema]

/-- Something is wrong with the reordered value at the same places, and it can be said of both or
of neither. -/
theorem Tidy.marks_eq (h : schema.Tidy) (hvw : v.Alike w) :
    schema.marks v = schema.marks w := by
  induction h generalizing v w with
  | null | text =>
      refine marks_eq_of_ofKind rfl hvw fun hof => ?_
      cases hof
      rw [hvw.eq_of_isScalar rfl]
  | integer =>
      refine marks_eq_of_ofKind rfl hvw fun hof => ?_
      cases hof with
      | whole hwhole => rw [hvw.eq_of_isScalar hwhole.isScalar]
  | list _ ih =>
      refine marks_eq_of_ofKind rfl hvw fun hof => ?_
      cases hvw.form with
      | scalar => rfl
      | mapping => cases hof
      | list hitems => exact marks_eq_list hitems ih
  | record _ _ _ ih =>
      refine marks_eq_of_ofKind rfl hvw fun hof => ?_
      cases hvw.form with
      | scalar => rfl
      | list => cases hof
      | mapping hentries => exact marks_eq_record hentries ih
  | oneOf _ ih =>
      show (if fitsAny _ v then [] else complain (.noAlternative v)).map Violation.mark =
        (if fitsAny _ w then [] else complain (.noAlternative w)).map Violation.mark
      rw [fitsAny_eq_of_alike fun schema hschema => ih schema hschema hvw]
      split
      · rfl
      · exact marks_complain hvw.reordered.isWritable_eq
  | named _ ih => exact ih hvw

end Schema

/-! ## What a value stands for -/

namespace Value

variable {α : Type} {R : Value → α → Prop} {entries entries' : List (Value × Value)} {key : String}
  {x absent : α}

/-- A relation that says the same of values that are alike. -/
def Respects (R : Value → α → Prop) : Prop :=
  ∀ (v w : Value) (x : α), v.Alike w → R v x → R w x

theorem respects_of_isScalar (h : ∀ (v : Value) (x : α), R v x → v.isScalar = true) :
    Respects R :=
  fun v _ x hvw hv => hvw.eq_of_isScalar (h v x hv) ▸ hv

theorem respects_text : Respects IsText :=
  respects_of_isScalar fun _ _ h => h.1 ▸ rfl

theorem respects_name : Respects IsName :=
  respects_of_isScalar fun _ _ h => h.1 ▸ rfl

theorem respects_whole : Respects IsWhole :=
  respects_of_isScalar fun _ _ => IsWhole.isScalar

theorem respects_listOf (h : Respects R) : Respects (IsListOf R) := by
  rintro v w xs hvw ⟨items, rfl, hitems⟩
  cases hvw.form with
  | scalar hscalar => cases hscalar
  | list halike =>
      refine ⟨_, rfl, ?_⟩
      -- the induction is on the items, and nothing is needed of the whole lists
      clear hvw
      induction halike generalizing xs with
      | nil =>
          cases hitems
          exact .nil
      | cons hfirst _ ih =>
          cases hitems with
          | cons hitem hrest => exact .cons (h _ _ _ hfirst hitem) (ih _ hrest)

theorem respects_optional (h : Respects R) : Respects (IsOptional R) := by
  rintro v w x hvw (⟨rfl, rfl⟩ | ⟨y, rfl, hy⟩)
  · exact .inl ⟨hvw.eq_of_isScalar rfl, rfl⟩
  · exact .inr ⟨y, rfl, h v w y hvw hy⟩

theorem respects_mapping {P : List (Value × Value) → α → Prop}
    (h : ∀ (entries entries' : List (Value × Value)) (x : α), AlikeEntries entries entries' →
      P entries x → P entries' x) : Respects (IsMapping P) := by
  rintro v w x hvw ⟨entries, rfl, hentries⟩
  cases hvw.form with
  | scalar hscalar => cases hscalar
  | mapping halike => exact ⟨_, rfl, h _ _ x halike hentries⟩

theorem AlikeEntries.hasOnly {keys : List String} (h : AlikeEntries entries entries')
    (honly : HasOnly keys entries) : HasOnly keys entries' := by
  intro entry hentry
  have hmem := h.keys.mem_iff.2 (List.mem_map_of_mem hentry)
  obtain ⟨entry', hentry', heq⟩ := List.mem_map.1 hmem
  rw [← heq]
  exact honly entry' hentry'

theorem AlikeEntries.exists_field {part : Value} (h : AlikeEntries entries entries')
    (hpart : field? key entries = some part) :
    ∃ part', field? key entries' = some part' ∧ part.Alike part' := by
  have hparts := h.fields key
  rw [hpart] at hparts
  generalize field? key entries' = found at hparts
  cases hparts with
  | some halike => exact ⟨_, rfl, halike⟩

theorem AlikeEntries.hasField (h : AlikeEntries entries entries') (hR : Respects R)
    (hfield : HasField R entries key x) : HasField R entries' key x := by
  obtain ⟨part, hpart, hx⟩ := hfield
  obtain ⟨part', hpart', halike⟩ := h.exists_field hpart
  exact ⟨part', hpart', hR _ _ _ halike hx⟩

theorem AlikeEntries.hasOptional (h : AlikeEntries entries entries') (hR : Respects R)
    (hfield : HasOptional R absent entries key x) : HasOptional R absent entries' key x := by
  rcases hfield with ⟨hnone, rfl⟩ | hfield
  · refine .inl ⟨?_, rfl⟩
    rw [field?_eq_none_iff] at hnone ⊢
    exact fun hmem => hnone (h.keys.mem_iff.2 hmem)
  · exact .inr (h.hasField hR hfield)

theorem respects_pathEntry : Respects IsPathEntry := by
  intro v w a hvw hv
  cases hv with
  | source htext => exact .source (respects_text v w _ hvw htext)
  | derived hkeys hpath hroot =>
      cases hvw.form with
      | scalar hscalar => cases hscalar
      | mapping halike =>
          exact .derived (halike.hasOnly hkeys) (halike.hasField respects_text hpath)
            (halike.hasField respects_text hroot)

theorem respects_pathList : Respects (IsListOf IsPathEntry) :=
  respects_listOf respects_pathEntry

theorem respects_fileGroup : Respects (IsMapping FileGroup.DescribedBy) :=
  respects_mapping fun _ _ _ halike h =>
    ⟨halike.hasOnly h.known, halike.hasField respects_text h.label,
      halike.hasField respects_pathList h.files⟩

theorem respects_declaration : Respects (IsMapping Declaration.DescribedBy) :=
  respects_mapping fun _ _ _ halike h =>
    { known := halike.hasOnly h.known
      name := halike.hasField respects_name h.name
      spec := fun subject => halike.hasField respects_whole (h.spec subject)
      systemImage := halike.hasField respects_fileGroup h.systemImage
      defaultProperties :=
        halike.hasOptional (respects_optional respects_pathEntry) h.defaultProperties
      apks := halike.hasOptional respects_pathList h.apks
      tags := halike.hasOptional (respects_listOf respects_text) h.tags
      executionInfo := h.executionInfo }

theorem respects_bundle : Respects (IsMapping ExecutableBundle.DescribedBy) :=
  respects_mapping fun _ _ _ halike h =>
    ⟨halike.hasOnly h.known, halike.hasField respects_pathEntry h.executable,
      halike.hasOptional respects_pathList h.files⟩

theorem respects_toolSet : Respects (IsMapping ToolSet.DescribedBy) :=
  respects_mapping fun _ _ _ halike h =>
    { known := halike.hasOnly h.known
      adb := halike.hasField respects_pathEntry h.adb
      adbStatic := halike.hasField respects_pathEntry h.adbStatic
      emulatorArm := halike.hasField respects_pathEntry h.emulatorArm
      emulatorX86 := halike.hasField respects_pathEntry h.emulatorX86
      biosFiles := halike.hasField respects_pathList h.biosFiles
      xvfbSupport := halike.hasOptional respects_pathList h.xvfbSupport
      mksdcard := halike.hasField respects_pathEntry h.mksdcard
      emptySnapshot := halike.hasField respects_pathEntry h.emptySnapshot
      launcher := halike.hasField respects_bundle h.launcher
      runtestFiles := halike.hasField respects_pathList h.runtestFiles
      shbaseFiles := halike.hasField respects_pathList h.shbaseFiles
      sdkPath := halike.hasField respects_pathEntry h.sdkPath }

end Value

/-! ## Parsing -/

/-- Two attempts to read a document come to the same: the same result, or two refusals for equally
many violations, found at the same places, or two for numbers that cannot be shown. -/
inductive SameVerdict {α : Type} :
    Except DeclarationFault α → Except DeclarationFault α → Prop where
  | accepted (a : α) : SameVerdict (.ok a) (.ok a)
  | refused {r r' : Schema.Rejection} (hcount : r.violations.length = r'.violations.length)
      (hpaths : (Schema.sorted r.violations).map Schema.Violation.path =
        (Schema.sorted r'.violations).map Schema.Violation.path) :
      SameVerdict (.error (.rejected r)) (.error (.rejected r'))
  | tooManyDigits : SameVerdict (.error .tooManyDigits) (.error .tooManyDigits)

namespace Schema

/-- Violations are sorted by their paths, and so the sorted paths are known from the paths. -/
theorem map_path_sorted (vs : List Violation) :
    (sorted vs).map Violation.path =
      (vs.map Violation.path).mergeSort fun p q =>
        pathLe (p.map Step.text) (q.map Step.text) :=
  List.map_mergeSort fun _ _ _ _ => rfl

variable {α : Type} {R : Value → α → Prop} {schema : Schema} {v w : Value}
  {read : Value → Except DeclarationFault α}

theorem sameVerdict_of_alike (htidy : schema.Tidy) (hreads : schema.Reads R)
    (hreading : ∀ {document x}, R document x → read document = .ok x) (hrespects : Respects R)
    (hvw : v.Alike w) (place place' : String) :
    SameVerdict (do (schema.check place v).mapError DeclarationFault.ofCheck; read v)
      (do (schema.check place' w).mapError DeclarationFault.ofCheck; read w) := by
  have hmarks := htidy.marks_eq hvw
  have haccepts : schema.Accepts v ↔ schema.Accepts w := by
    rw [accepts_iff_marks_eq_nil, hmarks, ← accepts_iff_marks_eq_nil]
  have hreport : schema.CanReport v ↔ schema.CanReport w := by
    rw [canReport_iff_marks, hmarks, ← canReport_iff_marks]
  by_cases hv : schema.Accepts v
  · obtain ⟨x, hx⟩ := (hreads v).1 hv
    have hx' := hrespects v w x hvw hx
    rw [check_eq_ok_iff.2 hv, check_eq_ok_iff.2 (haccepts.1 hv)]
    show SameVerdict (read v) (read w)
    rw [hreading hx, hreading hx']
    exact .accepted x
  · by_cases hsaid : schema.CanReport v
    · rw [check_of_canReport hv hsaid,
        check_of_canReport (fun hw => hv (haccepts.2 hw)) (hreport.1 hsaid)]
      have hpaths : (schema.violations v).map Violation.path =
          (schema.violations w).map Violation.path := by
        rw [map_path_eq, map_path_eq]
        exact congrArg (List.map Prod.fst) hmarks
      refine .refused ?_ ?_
      · simpa using congrArg List.length hpaths
      · rw [map_path_sorted, map_path_sorted, hpaths]
    · rw [checked_of_not_canReport hsaid,
        checked_of_not_canReport fun hw => hsaid (hreport.2 hw)]
      exact .tooManyDigits

end Schema

/-- A value without repeated keys, as every document is when it is loaded, and the same with its
keys in another order, at any depth. Taken as a device declaration, both are accepted and give the
same declaration, or both are refused for equally many violations with the same paths in order, or
both hold a number that cannot be shown where it would have to be; and so they are taken as a
toolchain manifest. The last does not happen when all numbers can be written. -/
theorem parse_reordered {v w : Value} (hv : v.WellKeyed) (hvw : v.Reordered w)
    (place place' : String) :
    SameVerdict (Declaration.parse place v) (Declaration.parse place' w) ∧
      SameVerdict (ToolSet.parse place v) (ToolSet.parse place' w) ∧
      (v.isWritable = true → Declaration.parse place v ≠ .error .tooManyDigits ∧
        ToolSet.parse place v ≠ .error .tooManyDigits) := by
  have halike : v.Alike w := ⟨hv, hvw⟩
  refine ⟨Schema.sameVerdict_of_alike Schema.tidy_device Schema.reads_device Declaration.read_eq
      Value.respects_declaration halike place place',
    Schema.sameVerdict_of_alike Schema.tidy_toolchain Schema.reads_toolchain ToolSet.read_eq
      Value.respects_toolSet halike place place', fun hwritable => ⟨?_, ?_⟩⟩
  · exact Schema.checked_ne_tooManyDigits Schema.reads_device (fun _ => Declaration.read_eq)
      (Schema.canReport_of_isWritable _ v hwritable)
  · exact Schema.checked_ne_tooManyDigits Schema.reads_toolchain (fun _ => ToolSet.read_eq)
      (Schema.canReport_of_isWritable _ v hwritable)

namespace KeyOrderSample

/-- A generated file, its path before its root. -/
def entry : Value := .ofFields [("path", .text "app.apk"), ("root", .text "out")]

def movedEntry : Value := .ofFields [("root", .text "out"), ("path", .text "app.apk")]

def numbers : List (String × Value) :=
  [ ("name", .text "phone"), ("horizontal_resolution", .int 320), ("vertical_resolution", .int 240)
  , ("ram", .int 512), ("screen_density", .int 160), ("cache", .int 32), ("vm_heap", .int 16) ]

/-- A phone, its system image last. -/
def phone : Value :=
  .ofFields
    (numbers ++ [("system_image", .ofFields [("label", .text "i"), ("files", .list [entry])])])

/-- The phone with its system image first, and that with its files first. -/
def movedPhone : Value :=
  .ofFields
    (("system_image", .ofFields [("files", .list [movedEntry]), ("label", .text "i")]) :: numbers)

def tree : FileTree where
  nodes :=
    [ (["work"], .directory)
    , (["phone.json", "work"],
        .file (Text.encodeUtf8 ((Json.render phone).toList ++ ['\n'])) 0o644) ]
  workingDirectory := ["work"]

theorem phone_reordered : phone.Reordered movedPhone := by
  have hentry : entry.Reordered movedEntry :=
    Value.reordered_ofFields (.swap _ _ _) rfl (.cons (.scalar rfl) (.cons (.scalar rfl) .nil))
  have himage : Value.Reordered (.ofFields [("label", .text "i"), ("files", .list [entry])])
      (.ofFields [("files", .list [movedEntry]), ("label", .text "i")]) :=
    Value.reordered_ofFields (.swap _ _ _) rfl
      (.cons (.list (.cons hentry .nil)) (.cons (.scalar rfl) .nil))
  have hnumbers : List.Forall₂ Value.Reordered (numbers.map Prod.snd) (numbers.map Prod.snd) := by
    have hscalar : ∀ value ∈ numbers.map Prod.snd, value.isScalar = true := by decide
    exact List.forall₂_same.2 fun value hvalue => .scalar (hscalar value hvalue)
  exact Value.reordered_ofFields (List.perm_append_singleton _ _) rfl (.cons himage hnumbers)

theorem tree_phone : tree.loadDocument (.ofString "phone.json") = .ok phone := by
  have hentry : Json.IsJson entry := by
    refine .fields (by decide) ?_
    simp only [List.forall_mem_cons]
    exact ⟨.text _, .text _, nofun⟩
  have himage : Json.IsJson (.ofFields [("label", .text "i"), ("files", .list [entry])]) := by
    refine .fields (by decide) ?_
    simp only [List.forall_mem_cons]
    exact ⟨.text _, .list (List.forall_mem_singleton.2 hentry), nofun⟩
  have hphone : Json.IsJson phone := by
    refine .fields (by decide) ?_
    simp only [numbers, List.cons_append, List.nil_append, List.forall_mem_cons]
    exact ⟨.text _, .int _, .int _, .int _, .int _, .int _, .int _, himage, nofun⟩
  exact FileTree.loadDocument_of_find hphone (by decide +kernel) rfl

/-- Both phones are the same device. -/
theorem phones_same :
    tree.loadDocument (.ofString "phone.json") = .ok phone ∧ phone.WellKeyed ∧
    phone.Reordered movedPhone ∧
    ∃ d, Declaration.parse "phone.json" phone = .ok d ∧
      Declaration.parse "moved.json" movedPhone = .ok d := by
  have hkeyed : phone.WellKeyed := tree.gives_loadDocument _ phone tree_phone
  refine ⟨tree_phone, hkeyed, phone_reordered, ?_⟩
  obtain ⟨hsame, _⟩ := parse_reordered hkeyed phone_reordered "phone.json" "moved.json"
  have hsome : (Declaration.parse "phone.json" phone).toOption.isSome = true := by decide +kernel
  generalize Declaration.parse "phone.json" phone = first,
    Declaration.parse "moved.json" movedPhone = second at hsame hsome
  cases hsame with
  | accepted d => exact ⟨d, rfl, rfl⟩
  | refused => cases hsome
  | tooManyDigits => cases hsome

/-- A number of one digit too many where a text is wanted, before and after another entry. -/
def numbered : Value :=
  .ofFields [("name", .int Text.leastTooLong), ("label", .text "i")]

def movedNumbered : Value :=
  .ofFields [("label", .text "i"), ("name", .int Text.leastTooLong)]

/-- In neither order is the number accepted, and in neither is it refused with its violations. -/
theorem numbered_unreported_twice :
    numbered.WellKeyed ∧ numbered.Reordered movedNumbered ∧
    ((¬ ∃ d, Declaration.parse "d.yaml" numbered = .ok d) ∧
      ¬ ∃ r, Declaration.parse "d.yaml" numbered = .error (.rejected r)) ∧
    (¬ ∃ d, Declaration.parse "d.yaml" movedNumbered = .ok d) ∧
      ¬ ∃ r, Declaration.parse "d.yaml" movedNumbered = .error (.rejected r) := by
  have hreport : ¬ Schema.device.CanReport numbered := by decide +kernel
  have hreport' : ¬ Schema.device.CanReport movedNumbered := by decide +kernel
  refine ⟨.mapping (.cons ?_ (List.pairwise_singleton _ _)) ?_, ?_,
    Schema.unread_of_not_canReport hreport, Schema.unread_of_not_canReport hreport'⟩
  · exact List.forall_mem_singleton.2 rfl
  · exact List.forall_mem_cons.2 ⟨.scalar rfl, List.forall_mem_singleton.2 (.scalar rfl)⟩
  · exact Value.reordered_ofFields (.swap _ _ _) rfl
      (.cons (.scalar rfl) (.cons (.scalar rfl) .nil))

end KeyOrderSample

end EmulatedDevice
