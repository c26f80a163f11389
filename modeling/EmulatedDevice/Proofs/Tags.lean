import EmulatedDevice.Proofs.DescriptorReading
import EmulatedDevice.Proofs.LaterRuns
import Mathlib.Data.List.Induction

/-!
# Tags become execution info

The tags of a declaration are a list in which a tag may come twice; execution info is
a mapping, and a mapping has each key once. Putting in a tag that is there already
keeps its place, so the mapping lists the tags by their first occurrences and two
declarations whose tags first occur in the same order have the same execution info.
After that it is only handed on: from the declaration to the request, to the target
and its boot action, and into the descriptor, which is loaded as it was published.
-/

namespace EmulatedDevice

open Value

namespace ExecutionInfo

variable {info info' : ExecutionInfo} {tags tags' : List String}

/-- Execution info that has every tag once, in the order in which the tags come first, each without
a value, and nothing more. -/
structure Lists (info : ExecutionInfo) (tags : List String) : Prop where
  nodup : (info.map Prod.fst).Nodup
  mem : ∀ tag, tag ∈ info.map Prod.fst ↔ tag ∈ tags
  inOrder : (info.map Prod.fst).Pairwise fun a b => tags.idxOf a < tags.idxOf b
  empty : ∀ entry ∈ info, entry.2 = ""

/-- The same tags, which come first in the same order. -/
structure SameFirsts (tags tags' : List String) : Prop where
  mem : ∀ tag, tag ∈ tags ↔ tag ∈ tags'
  order : ∀ a ∈ tags, ∀ b ∈ tags, tags.idxOf a < tags.idxOf b ↔ tags'.idxOf a < tags'.idxOf b

theorem ofTags_concat (tags : List String) (tag : String) :
    ofTags (tags ++ [tag]) = Entries.put (· == ·) tag "" (ofTags tags) := by
  simp [ofTags, Entries.ofPairs]

/-- More tags behind the others leave the order of those as it is. -/
theorem Lists.inOrder_append (h : info.Lists tags) (more : List String) :
    (info.map Prod.fst).Pairwise fun a b => (tags ++ more).idxOf a < (tags ++ more).idxOf b := by
  refine h.inOrder.imp_of_mem fun {a b} ha hb hlt => ?_
  rwa [List.idxOf_append_of_mem ((h.mem a).1 ha), List.idxOf_append_of_mem ((h.mem b).1 hb)]

/-- A tag that is listed already changes nothing. -/
theorem Lists.concat_of_mem {tag : String} (h : info.Lists tags) (hmem : tag ∈ tags) :
    Lists (Entries.put (· == ·) tag "" info) (tags ++ [tag]) := by
  have hget : Entries.get? (· == ·) tag info = some "" := by
    obtain ⟨value, hvalue⟩ :=
      Option.isSome_iff_exists.1 (Entries.get?_isSome_iff.2 ((h.mem tag).2 hmem))
    rw [hvalue, ← h.empty _ (Entries.mem_of_get? (fun _ => eq_of_beq) hvalue)]
  rw [Entries.put_eq_self hget]
  refine ⟨h.nodup, fun other => ?_, h.inOrder_append [tag], h.empty⟩
  rw [h.mem, List.mem_append, List.mem_singleton]
  exact ⟨.inl, fun hor => hor.elim id fun heq => heq ▸ hmem⟩

/-- A new tag is listed last. -/
theorem Lists.concat_of_not_mem {tag : String} (h : info.Lists tags) (hnew : tag ∉ tags) :
    Lists (Entries.put (· == ·) tag "" info) (tags ++ [tag]) := by
  have hput : Entries.put (· == ·) tag "" info = info ++ [(tag, "")] := by
    refine Entries.put_eq_append fun entry hentry => beq_false_of_ne fun heq => hnew ?_
    exact (h.mem tag).1 (heq ▸ List.mem_map_of_mem hentry)
  rw [hput]
  refine ⟨?_, fun other => ?_, ?_, fun entry hentry => ?_⟩
  · rw [List.map_append]
    refine h.nodup.append (List.nodup_singleton tag) (List.disjoint_singleton.2 fun hmem => ?_)
    exact hnew ((h.mem tag).1 hmem)
  · rw [List.map_append, List.mem_append, List.mem_append, h.mem]
    rfl
  · rw [List.map_append, List.pairwise_append]
    refine ⟨h.inOrder_append [tag], List.pairwise_singleton _ _, fun a ha b hb => ?_⟩
    obtain rfl : b = tag := List.mem_singleton.1 hb
    rw [List.idxOf_append_of_mem ((h.mem a).1 ha), List.idxOf_append_of_notMem hnew]
    have hplace := List.idxOf_lt_length_of_mem ((h.mem a).1 ha)
    omega
  · rcases List.mem_append.1 hentry with hentry | hentry
    · exact h.empty entry hentry
    · rw [List.mem_singleton.1 hentry]

/-- By induction from the end, since tags are put in one behind the other. -/
theorem lists_ofTags (tags : List String) : (ofTags tags).Lists tags := by
  induction tags using List.reverseRecOn with
  | nil => exact ⟨List.nodup_nil, fun _ => Iff.rfl, List.Pairwise.nil, nofun⟩
  | append_singleton tags tag ih =>
      rw [ofTags_concat]
      by_cases hmem : tag ∈ tags
      · exact ih.concat_of_mem hmem
      · exact ih.concat_of_not_mem hmem

/-- What the info lists is settled by the first occurrences alone. -/
theorem Lists.eq (h : info.Lists tags) (h' : info'.Lists tags') (hsame : SameFirsts tags tags') :
    info = info' := by
  have hperm : (info.map Prod.fst).Perm (info'.map Prod.fst) :=
    (List.perm_ext_iff_of_nodup h.nodup h'.nodup).2 fun tag => by
      rw [h.mem, h'.mem, hsame.mem]
  have horder : (info.map Prod.fst).Pairwise fun a b => tags'.idxOf a < tags'.idxOf b :=
    h.inOrder.imp_of_mem fun {a b} ha hb =>
      (hsame.order a ((h.mem a).1 ha) b ((h.mem b).1 hb)).1
  have hkeys : info.map Prod.fst = info'.map Prod.fst :=
    hperm.eq_of_pairwise (fun _ _ _ _ hlt hgt => absurd hgt hlt.asymm) horder h'.inOrder
  have hentries : ∀ {info : ExecutionInfo}, (∀ entry ∈ info, entry.2 = "") →
      info = (info.map Prod.fst).map fun tag => (tag, "") := by
    intro info hempty
    rw [List.map_map]
    exact (List.map_id' info).symm.trans
      (List.map_congr_left fun entry hentry => Prod.ext rfl (hempty entry hentry))
  rw [hentries h.empty, hentries h'.empty, hkeys]

theorem SameFirsts.refl (tags : List String) : SameFirsts tags tags :=
  ⟨fun _ => Iff.rfl, fun _ _ _ _ => Iff.rfl⟩

/-- Execution info as it is written in a descriptor. -/
def toValue (info : ExecutionInfo) : Value :=
  .ofFields (info.map fun (tag, value) => (tag, .text value))

end ExecutionInfo

theorem Target.descriptor_executionInfo (target : Target) :
    (target.descriptor.lookup "boot_action").lookup "execution_info" =
      target.bootAction.executionInfo.toValue :=
  rfl

/-- Execution info goes through the assembly as it is. -/
theorem TargetRequest.executionInfo_of_assemble {r : TargetRequest} {target : Target}
    (h : r.assemble = .ok target) :
    target.executionInfo = r.executionInfo ∧ target.bootAction.executionInfo = r.executionInfo := by
  obtain ⟨deps, script, _, _, rfl⟩ := exists_of_assemble h
  exact ⟨rfl, rfl⟩

namespace CommandLine.Lower

variable {t : FileTree} {environment : Environment} {words : List String} {options : Options}
  {inputs : Inputs}

/-- A declaration that was loaded is the one that the document at its path describes. -/
theorem exists_document_of_loads (h : Loads t environment words options inputs) :
    ∃ document, t.loadDocument options.device = .ok document ∧
      IsMapping Declaration.DescribedBy document inputs.declaration := by
  obtain ⟨_, _, hload⟩ := h
  obtain ⟨document, hdocument, hparse⟩ := exists_of_bind_eq_ok (exists_of_loadInputs hload).1
  exact ⟨document, hdocument, Declaration.parse_eq_ok_iff.1 (eq_ok_of_mapError hparse)⟩

/-- The target of a run has the execution info that the tags of its declaration ask for. -/
theorem executionInfo_of_loads {target : Target} (h : Loads t environment words options inputs)
    (hassemble : (request options inputs).assemble = .ok target) :
    target.executionInfo = .ofTags inputs.declaration.tags ∧
      target.bootAction.executionInfo = .ofTags inputs.declaration.tags := by
  obtain ⟨_, _, _, _, hdevice⟩ := exists_document_of_loads h
  rw [← hdevice.executionInfo]
  exact TargetRequest.executionInfo_of_assemble hassemble

/-- A run that ends well has a declaration, as its document describes it. The execution info of the
target lists the tags of the declaration, and so does the execution info of the descriptor, as it is
loaded from where the run has written it. Another run has a target with the same execution info if
the tags of its declaration come first in the same order. -/
theorem tags_listed (t : FileTree) (environment : Environment) (words : List String)
    (hending : (run t environment words).2.ending = .returned 0) :
    ∃ options inputs document target descriptor, Loads t environment words options inputs ∧
      t.loadDocument options.device = .ok document ∧
      IsMapping Declaration.DescribedBy document inputs.declaration ∧
      (request options inputs).assemble = .ok target ∧
      target.executionInfo.Lists inputs.declaration.tags ∧
      (run t environment words).1.loadDocument
        (descriptorPath options.output inputs.declaration.name) = .ok descriptor ∧
      (descriptor.lookup "boot_action").lookup "execution_info" = target.executionInfo.toValue ∧
      ∀ t' environment' words' options' inputs' target',
        Loads t' environment' words' options' inputs' →
        (request options' inputs').assemble = .ok target' →
        ExecutionInfo.SameFirsts inputs.declaration.tags inputs'.declaration.tags →
        target'.executionInfo = target.executionInfo := by
  obtain ⟨options, inputs, h, ⟨hcode, _⟩ | ⟨hcode, _⟩ | ⟨_, _, target, hassemble, hpublish⟩⟩ :=
    exists_of_returned hending
  · cases hcode
  · cases hcode
  · obtain ⟨document, hdocument, hdevice⟩ := exists_document_of_loads h
    obtain ⟨hinfo, haction⟩ := executionInfo_of_loads h hassemble
    have hnodup : ((request options inputs).executionInfo.map Prod.fst).Nodup := by
      rw [← (TargetRequest.executionInfo_of_assemble hassemble).1, hinfo]
      exact ExecutionInfo.nodup_ofTags _
    have hlists : target.executionInfo.Lists inputs.declaration.tags :=
      hinfo ▸ ExecutionInfo.lists_ofTags _
    refine ⟨options, inputs, document, target, target.descriptor, h, hdocument, hdevice, hassemble,
      hlists, ?_, ?_, ?_⟩
    · exact FileTree.loadDocument_of_publish
        (TargetRequest.wellFormed_of_assemble hnodup hassemble) hpublish
    · rw [target.descriptor_executionInfo, haction, hinfo]
    · intro t' environment' words' options' inputs' target' h' hassemble' hsame
      have hlists' : target'.executionInfo.Lists inputs'.declaration.tags :=
        (executionInfo_of_loads h' hassemble').1 ▸ ExecutionInfo.lists_ofTags _
      exact (hlists.eq hlists' hsame).symm

/-- The tree with a phone that has a tag twice. -/
def taggedTree : FileTree :=
  { sampleTree with
    nodes := (["tagged.json", "work"], sampleDevice "512,\"tags\":[\"b\",\"a\",\"b\"]") ::
      sampleTree.nodes }

def taggedInputs : Inputs :=
  { sampleInputs 512 with
    declaration := { sampleDeclaration 512 with
      tags := ["b", "a", "b"]
      executionInfo := [("b", ""), ("a", "")] } }

theorem taggedTree_loads :
    Loads taggedTree ⟨none, none, none⟩ (sampleWords "tagged.json") (sampleOptions "tagged.json")
      taggedInputs :=
  HasSampleTools.loads ⟨rfl, rfl⟩ rfl (eq_ok_of_toOption (by decide +kernel))

theorem taggedTree_halfFree :
    isHalfFree taggedTree (sampleOptions "tagged.json") taggedInputs = true :=
  HasSampleTools.isHalfFree ⟨rfl, rfl⟩ (eq_ok_of_toOption (by decide +kernel))

theorem taggedTree_published :
    (run taggedTree ⟨none, none, none⟩ (sampleWords "tagged.json")).2.ending = .returned 0 := by
  obtain ⟨target, hassemble⟩ : ∃ target,
      (request (sampleOptions "tagged.json") taggedInputs).assemble = .ok target :=
    TargetRequest.exists_assemble_iff.2 ⟨TargetRequest.issues_eq_nil.1 (by decide),
      ⟨by decide +kernel, by decide +kernel, Template.meetsEachOnce_tokens⟩, by decide +kernel⟩
  obtain ⟨_, text, htext⟩ := TargetRequest.expand_of_assemble hassemble
  have hpublish : taggedTree.publish target (.ofString "out") "phone" =
      ((taggedTree.publish target (.ofString "out") "phone").1, .ok ()) := by
    rw [FileTree.publish, htext]
    rfl
  exact (taggedTree_loads.run_of_published hassemble taggedTree_halfFree hpublish).2

/-- The tags `b`, `a` and again `b` are listed as `b` and `a`. -/
theorem tagged_listed :
    ∃ target descriptor,
      (request (sampleOptions "tagged.json") taggedInputs).assemble = .ok target ∧
      target.executionInfo = [("b", ""), ("a", "")] ∧
      (run taggedTree ⟨none, none, none⟩ (sampleWords "tagged.json")).1.loadDocument
        (descriptorPath (.ofString "out") "phone") = .ok descriptor ∧
      (descriptor.lookup "boot_action").lookup "execution_info" =
        .ofFields [("b", .text ""), ("a", .text "")] := by
  obtain ⟨_, _, _, target, descriptor, h, _, _, hassemble, hlists, hdescriptor, hinfo, _⟩ :=
    tags_listed _ _ _ taggedTree_published
  obtain ⟨rfl, rfl⟩ := taggedTree_loads.unique h
  have heq : target.executionInfo = [("b", ""), ("a", "")] :=
    hlists.eq (ExecutionInfo.lists_ofTags ["b", "a", "b"]) (.refl _)
  rw [heq] at hinfo
  exact ⟨target, descriptor, hassemble, heq, hdescriptor, hinfo⟩

end CommandLine.Lower

end EmulatedDevice
