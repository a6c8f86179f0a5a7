import Flowgraph.Proofs.Draft.Interpret
import Flowgraph.Proofs.Draft.Order
import Flowgraph.Proofs.Fragment.Printer

/-!
# Rebuilding a fragment from names

Give a name to each place in the interface of a fragment, no two the same. Then there is a draft that is
finished as the fragment: its names are declared, and each hidden label and entry is given its block,
with names for the labels. In which order this is done does not matter, except that each kind of names
must be declared in its order, and that declarations come first.

On both sides of the code, a label is the position of its place in a list of places: hidden labels and
entries on the one side, hidden labels and exits on the other. That is why the names, which are in the
same order, are resolved to the labels that they stand for.
-/

namespace Flowgraph

variable {Inst Cond : Type}

namespace Fragment

/-- The places of the hidden labels, in order. -/
def hiddenPlaces (fragment : Fragment Inst Cond) : List Place :=
  (List.range fragment.internal.count).map Place.hidden

/-- The places of the entries, in order. -/
def entryPlaces (fragment : Fragment Inst Cond) : List Place :=
  (List.range fragment.inputs.count).map Place.entry

/-- The places of the exits, in order. -/
def exitPlaces (fragment : Fragment Inst Cond) : List Place :=
  (List.range fragment.outputs.count).map Place.exit

/-- All places in the interface of a fragment. -/
def places (fragment : Fragment Inst Cond) : List Place :=
  fragment.hiddenPlaces ++ (fragment.entryPlaces ++ fragment.exitPlaces)

/-- The calls that give each hidden label and each entry its block, with names for the labels. -/
def attachments (fragment : Fragment Inst Cond) (name : Place → String) :
    List (Draft.Call Inst Cond) :=
  fragment.code.blocks.toList.zipIdx.map fun (block, index) =>
    .attach (name (fragment.entryPlace ⟨index⟩))
      (block.mapLabels fun target => name (fragment.targetPlace target))

/-- Calls that declare the names of a fragment's places, each kind in its order, however the three kinds
are mixed. -/
structure DeclaredBy (fragment : Fragment Inst Cond) (name : Place → String)
    (calls : List (Draft.Call Inst Cond)) : Prop where
  declaring : ∀ call ∈ calls, call.declared?.isSome
  hidden : calls.filterMap Draft.Call.hidden? = fragment.hiddenPlaces.map name
  entries : calls.filterMap Draft.Call.entry? = fragment.entryPlaces.map name
  exits : calls.filterMap Draft.Call.exit? = fragment.exitPlaces.map name

variable (fragment : Fragment Inst Cond)

/-- When hidden labels come first, places are in the order of labels. -/
theorem map_range_eq_hiddenPlaces_append {place : Label → Place} {other : Nat → Place}
    (hidden : ∀ label : Label, label.Within fragment.internal → place label = .hidden label.index)
    (visible : ∀ index, place ⟨fragment.internal.count + index⟩ = other index) (count : Nat) :
    (Label.range (fragment.internal.count + count)).map place =
      fragment.hiddenPlaces ++ (List.range count).map other := by
  rw [Label.range, List.range_add, List.map_append, List.map_append, hiddenPlaces]
  congr 1
  · rw [List.map_map]
    exact List.map_congr_left fun index member => hidden ⟨index⟩ (List.mem_range.mp member)
  · simp only [List.map_map]
    exact List.map_congr_left fun index _ => visible index

/-- That is so on the side of the blocks. -/
theorem map_entryPlace_range :
    (Label.range fragment.code.entries.count).map fragment.entryPlace =
      fragment.hiddenPlaces ++ fragment.entryPlaces := by
  rw [fragment.entries_eq, entryPlaces]
  apply map_range_eq_hiddenPlaces_append
  · intro label inside
    exact if_pos inside
  · intro index
    simp [entryPlace, Label.Within]

/-- And it is so on the side of the branches. -/
theorem map_targetPlace_range :
    (Label.range fragment.code.exits.count).map fragment.targetPlace =
      fragment.hiddenPlaces ++ fragment.exitPlaces := by
  rw [fragment.exits_eq, exitPlaces]
  apply map_range_eq_hiddenPlaces_append
  · intro label inside
    exact if_pos inside
  · intro index
    simp [targetPlace, Label.Within]

/-- No place is listed twice. -/
theorem nodup_places : fragment.places.Nodup := by
  have ranges {place : Nat → Place} (injective : Function.Injective place) (count : Nat) :
      ((List.range count).map place).Nodup := List.nodup_range.map injective
  rw [places, List.nodup_append', List.nodup_append']
  refine ⟨ranges (fun _ _ => Place.hidden.inj) _, ⟨ranges (fun _ _ => Place.entry.inj) _,
    ranges (fun _ _ => Place.exit.inj) _, ?_⟩, ?_⟩
  · simp [List.Disjoint, entryPlaces, exitPlaces]
  · simp [List.Disjoint, hiddenPlaces, entryPlaces, exitPlaces]

variable {fragment}

theorem mem_attachments_iff {name : Place → String} {call : Draft.Call Inst Cond} :
    call ∈ fragment.attachments name ↔
      ∃ index block, fragment.code.blocks[index]? = some block ∧
        call = .attach (name (fragment.entryPlace ⟨index⟩))
          (block.mapLabels fun target => name (fragment.targetPlace target)) := by
  simp only [attachments, List.mem_map, Prod.exists, List.mem_zipIdx_iff_getElem?,
    Array.getElem?_toList]
  constructor
  · rintro ⟨block, index, found, rfl⟩
    exact ⟨index, block, found, rfl⟩
  · rintro ⟨index, block, found, rfl⟩
    exact ⟨block, index, found, rfl⟩

/-- Each hidden label and each entry is given one block. -/
theorem filterMap_attached?_attachments (name : Place → String) :
    (fragment.attachments name).filterMap Draft.Call.attached? =
      (fragment.hiddenPlaces ++ fragment.entryPlaces).map name := by
  have indexes : List.range fragment.code.entries.count =
      fragment.code.blocks.toList.zipIdx.map Prod.snd := by
    rw [List.zipIdx_map_snd, List.range_eq_range']
    rfl
  rw [← map_entryPlace_range, attachments, List.filterMap_map, Label.range, indexes, List.map_map,
    List.map_map, List.map_map, ← List.filterMap_eq_map]
  rfl

end Fragment

namespace Draft

variable {fragment : Fragment Inst Cond} {name : Place → String} {draft : Draft Inst Cond}
  {declarations attachments : List (Call Inst Cond)}

/-- Calls that declare names do nothing else. -/
theorem filterMap_attached?_declarations (declared : fragment.DeclaredBy name declarations) :
    declarations.filterMap Call.attached? = [] := by
  rw [List.filterMap_eq_nil_iff]
  intro call member
  have declares := declared.declaring call member
  cases call with
  | attach target block => cases declares
  | _ => rfl

section Attachments

variable (attached : attachments.Perm (fragment.attachments name))

include attached

/-- Calls that give blocks to names do nothing else. -/
theorem filterMap_attachments_eq_nil {A : Type} {part : Call Inst Cond → Option A}
    (nothing : ∀ target block, part (.attach target block) = none) :
    attachments.filterMap part = [] := by
  rw [List.filterMap_eq_nil_iff]
  intro call member
  obtain ⟨index, block, -, rfl⟩ := Fragment.mem_attachments_iff.mp (attached.mem_iff.mp member)
  exact nothing _ _

/-- The calls can be performed one after the other. -/
theorem consecutive_rebuild (declared : fragment.DeclaredBy name declarations)
    (distinct : (fragment.places.map name).Nodup) :
    Call.Consecutive [] (declarations ++ attachments) := by
  rw [Call.consecutive_append, List.nil_append]
  constructor
  · apply Call.consecutive_of_declaring declared.declaring
    rw [List.nil_append, Call.filterMap_declared?_perm.nodup_iff, declared.hidden,
      declared.entries, declared.exits, ← List.map_append, ← List.map_append]
    exact distinct
  · have names : (fragment.attachments name).filterMap Call.attached? =
        declarations.filterMap Call.hidden? ++ declarations.filterMap Call.entry? := by
      rw [Fragment.filterMap_attached?_attachments, declared.hidden, declared.entries,
        List.map_append]
    apply Call.consecutive_of_attaching
    · intro call member
      have listed := attached.mem_iff.mp member
      obtain ⟨index, block, -, rfl⟩ := Fragment.mem_attachments_iff.mp listed
      refine ⟨_, _, rfl, ?_⟩
      rw [← List.mem_append, ← names]
      exact List.mem_filterMap.mpr ⟨_, listed, rfl⟩
    · rw [List.filterMap_append, filterMap_attached?_declarations declared, List.nil_append,
        (attached.filterMap _).nodup_iff, Fragment.filterMap_attached?_attachments]
      rw [Fragment.places, ← List.append_assoc, List.map_append] at distinct
      exact (List.nodup_append.mp distinct).1

end Attachments

/-- A draft describes a fragment by names: it has the names of the places, in order, and the blocks with
names for their labels. -/
structure Describes (draft : Draft Inst Cond) (fragment : Fragment Inst Cond)
    (name : Place → String) : Prop where
  hidden : draft.hiddenNames = fragment.hiddenPlaces.map name
  entries : draft.entryNames = fragment.entryPlaces.map name
  exits : draft.exits = fragment.exitPlaces.map name
  blocks : ∀ index block, fragment.code.blocks[index]? = some block →
    draft.block? (name (fragment.entryPlace ⟨index⟩)) =
      some (block.mapLabels fun target => name (fragment.targetPlace target))

section Describes

variable (describes : draft.Describes fragment name)

include describes

/-- The hidden labels and entries of the draft have the names of the labels with blocks. -/
theorem Describes.entryName_eq {index : Nat} (inside : index < fragment.code.entries.count) :
    ((draft.hidden ++ draft.entries).map Declaration.name)[index]? =
      some (name (fragment.entryPlace ⟨index⟩)) := by
  rw [List.map_append, ← hiddenNames, ← entryNames, describes.hidden, describes.entries,
    ← List.map_append, ← fragment.map_entryPlace_range, Label.range]
  simp only [List.getElem?_map, List.getElem?_range inside, Option.map_some]

/-- The hidden labels and exits of the draft have the names of the targets. -/
theorem Describes.targetName_eq {target : Label} (inside : target.Within fragment.code.exits) :
    (draft.hiddenNames ++ draft.exits)[target.index]? =
      some (name (fragment.targetPlace target)) := by
  rw [describes.hidden, describes.exits, ← List.map_append, ← fragment.map_targetPlace_range,
    Label.range]
  simp only [List.getElem?_map, List.getElem?_range inside, Option.map_some]

variable (distinct : (fragment.places.map name).Nodup)

include distinct

theorem Describes.names_distinct : draft.Distinct := by
  rw [Distinct, names, describes.hidden, describes.entries, describes.exits, ← List.map_append,
    ← List.map_append]
  exact distinct

/-- The name of a target is resolved to the target. -/
theorem Describes.target_name {target : Label} (inside : target.Within fragment.code.exits) :
    draft.Targets (name (fragment.targetPlace target)) ∧
      draft.target (name (fragment.targetPlace target)) = target := by
  have listed := describes.targetName_eq inside
  have once : (draft.hiddenNames ++ draft.exits).Nodup := by
    have names := describes.names_distinct distinct
    rw [Distinct, Draft.names] at names
    exact names.sublist ((List.sublist_append_right _ _).append_left _)
  constructor
  · exact List.mem_append.mp (List.mem_of_getElem? listed)
  · obtain ⟨bound, there⟩ := List.getElem?_eq_some_iff.mp listed
    rw [Draft.target, numberAmong_eq_idxOf, ← there, once.idxOf_getElem]

/-- So the block of a name is resolved to the block that lies at its place. -/
theorem Describes.resolveBlock_eq {index : Nat} {declaration : Declaration Inst Cond}
    {block : Block Inst Cond Label}
    (declared : (draft.hidden ++ draft.entries)[index]? = some declaration)
    (placed : fragment.code.blocks[index]? = some block) :
    draft.resolveBlock declaration = .ok block := by
  obtain ⟨inside, -⟩ := Array.getElem?_eq_some_iff.mp placed
  have named : declaration.name = name (fragment.entryPlace ⟨index⟩) := by
    have listed := describes.entryName_eq inside
    rw [List.getElem?_map, declared] at listed
    exact Option.some.inj listed
  have given : declaration.block? =
      some (block.mapLabels fun target => name (fragment.targetPlace target)) := by
    have held := (describes.names_distinct distinct).block?_eq (List.mem_of_getElem? declared)
    rw [← held, named]
    exact describes.blocks index block placed
  have within : ∀ target ∈ block.successors, target.Within fragment.code.exits :=
    fragment.code.targets_within block (Array.mem_of_getElem? placed)
  refine resolveBlock_eq_ok_iff.mpr ⟨_, given, ?_, ?_⟩
  · intro called member
    rw [Block.successors_mapLabels] at member
    obtain ⟨target, targetMember, rfl⟩ := List.mem_map.mp member
    exact (describes.target_name distinct (within target targetMember)).1
  · rw [Block.mapLabels_mapLabels]
    apply (Block.mapLabels_congr _).trans (Block.mapLabels_id block)
    intro target member
    exact (describes.target_name distinct (within target member)).2

/-- A draft that describes a fragment by distinct names is finished as the fragment. -/
theorem Describes.assemble : draft.assemble = .ok fragment := by
  have internal := congrArg List.length describes.hidden
  have inputs := congrArg List.length describes.entries
  have outputs := congrArg List.length describes.exits
  simp only [length_hiddenNames, length_entryNames, Fragment.hiddenPlaces, Fragment.entryPlaces,
    Fragment.exitPlaces, List.length_map, List.length_range] at internal inputs outputs
  refine assemble_eq_ok_iff.mpr ⟨?_, internal.symm, inputs.symm, outputs.symm⟩
  rw [List.forall₂_iff_get]
  constructor
  · rw [List.length_append, internal, inputs, ← fragment.entries_eq]
    rfl
  · intro index declared placed
    apply describes.resolveBlock_eq distinct
    · exact List.getElem?_eq_getElem declared
    · rw [← Array.getElem?_toList]
      exact List.getElem?_eq_getElem placed

end Describes

/-- A draft that records the calls describes the fragment. -/
theorem Records.describes (records : draft.Records (declarations ++ attachments))
    (declared : fragment.DeclaredBy name declarations)
    (attached : attachments.Perm (fragment.attachments name)) : draft.Describes fragment name := by
  have nothing {A : Type} {part : Call Inst Cond → Option A}
      (skips : ∀ target block, part (.attach target block) = none) :
      (declarations ++ attachments).filterMap part = declarations.filterMap part := by
    rw [List.filterMap_append, filterMap_attachments_eq_nil attached skips, List.append_nil]
  constructor
  · rw [records.hidden, nothing fun _ _ => rfl, declared.hidden]
  · rw [records.entries, nothing fun _ _ => rfl, declared.entries]
  · rw [records.exits, nothing fun _ _ => rfl, declared.exits]
  · intro index block placed
    rw [records.block?_eq_some_iff]
    apply List.mem_append_right
    exact attached.mem_iff.mpr (Fragment.mem_attachments_iff.mpr ⟨index, block, placed, rfl⟩)

end Draft

/-- A fragment can be rebuilt from names. Whatever names its places are given, as long as they are
distinct: when these are declared, each kind in its order, and each hidden label and entry is then given
its block, with names for the labels and in whatever order, every call can be performed, and the draft is
finished as the fragment. The names that are written in the text of the fragment are distinct. -/
theorem Fragment.exists_rebuild (fragment : Fragment Inst Cond) :
    (∀ (name : Place → String) (declarations attachments : List (Draft.Call Inst Cond)),
      (fragment.places.map name).Nodup → fragment.DeclaredBy name declarations →
        attachments.Perm (fragment.attachments name) →
          ∃ draft, Draft.empty.performAll (declarations ++ attachments) = .ok draft ∧
            draft.assemble = .ok fragment) ∧
      (fragment.places.map Place.text).Nodup := by
  constructor
  · intro name declarations attachments distinct declared attached
    have follows := Draft.consecutive_rebuild attached declared distinct
    obtain ⟨draft, performed⟩ := Draft.records_empty.exists_performAll_iff.mpr follows
    have records := Draft.records_empty.performAll performed
    rw [List.nil_append] at records
    exact ⟨draft, performed, (records.describes declared attached).assemble distinct⟩
  · exact fragment.nodup_places.map Place.text_injective

namespace Countdown

/-- The names in the draft of the loop. -/
def placeName : Place → String
  | .hidden _ => "loop"
  | .entry _ => "start"
  | .exit _ => "done"

/-- The descent is rebuilt by the calls that have drafted it. -/
theorem rebuild_descent :
    ∃ draft, Draft.empty.performAll
        [.declareEntry "start", .declareHidden "loop", .declareExit "done",
          .attach "start" (.jump "loop"),
          .attach "loop" ⟨[.say "tick", .dec], .conditional () "loop" "done"⟩] = .ok draft ∧
      draft.assemble = .ok descent := by
  have distinct : (descent.places.map placeName).Nodup := by decide
  have declared : descent.DeclaredBy placeName
      [.declareEntry "start", .declareHidden "loop", .declareExit "done"] :=
    ⟨by simp [Draft.Call.declared?], rfl, rfl, rfl⟩
  exact descent.exists_rebuild.1 placeName _ _ distinct declared (.swap _ _ [])

end Countdown

end Flowgraph
