import Flowgraph.Fragment.Printer
import Flowgraph.Proofs.Text.Separated

/-!
# Fragments are known by their texts

The text of a fragment has three levels. It consists of lines; a line consists of instructions and a
branch, with a semicolon and a blank between them; and the branch of operands, with a comma and a blank
between them. On each level, equal texts have equal pieces, provided that the instruction set writes
nothing that looks like a separator; `Spelling.Legible` says what that comes to.

A line does not tell its number, nor does it have to: the first line gives the sizes, and so it gives the
place of each of the lines behind it.
-/

namespace Flowgraph

open Text

variable {Inst Cond L : Type}

/-- An instruction set can be read: different instructions and conditions are written in different
ways, and without the characters with which the separators around them begin. -/
structure Spelling.Legible (spelling : Spelling Inst Cond) : Prop where
  inst_injective : Function.Injective spelling.inst
  cond_injective : Function.Injective spelling.cond
  inst_avoids : ∀ inst, Avoids [';', '\n'] (spelling.inst inst)
  cond_avoids : ∀ cond, Avoids [',', ';', '\n'] (spelling.cond cond)

section Places

/-- The letter of a place. -/
def Place.letter : Place → Char
  | hidden _ => 'i'
  | entry _ => 'e'
  | exit _ => 'x'

/-- The number of a place among those with its letter. -/
def Place.number : Place → Nat
  | hidden index => index
  | entry index => index
  | exit index => index

theorem Place.toList_text (place : Place) :
    place.text.toList = place.letter :: (toString place.number).toList := by
  cases place <;> exact String.toList_append

/-- The text of a place has none of the separators around it. -/
theorem Place.avoids_text (place : Place) : Avoids [',', ';', '\n'] place.text := by
  intro mark member
  rw [toList_text, List.mem_cons, not_or]
  refine ⟨?_, avoids_natural (by simp) place.number mark member⟩
  rintro rfl
  cases place <;> simp [letter] at member

/-- A place is known by its text. -/
theorem Place.text_injective : Function.Injective Place.text := by
  intro left right same
  rw [← String.toList_inj, toList_text, toList_text, List.cons.injEq, String.toList_inj] at same
  obtain ⟨letters, numbers⟩ := same
  have indexes : left.number = right.number := Nat.repr_inj.mp numbers
  cases left <;> cases right <;> simp_all [letter, number]

/-- A target is known by its place in a fragment. -/
theorem Fragment.targetPlace_injective (fragment : Fragment Inst Cond) :
    Function.Injective fragment.targetPlace := by
  intro left right same
  apply Label.ext
  unfold targetPlace at same
  split at same
  · split at same
    · exact Place.hidden.inj same
    · cases same
  · split at same
    · cases same
    · have numbers := Place.exit.inj same
      simp only [Label.Within] at *
      omega

end Places

section Blocks

variable {condText : Cond → String} {labelText : L → String}

/-- The operands of a branch, the first one with the word in front that tells the kind. -/
def Branch.operands (condText : Cond → String) (labelText : L → String) :
    Branch Cond L → List String
  | jump target => ["jmp " ++ labelText target]
  | conditional test whenTrue whenFalse =>
    ["br " ++ condText test, labelText whenTrue, labelText whenFalse]
  | halt => ["halt"]

theorem Branch.render_eq_intercalate (branch : Branch Cond L) :
    branch.render condText labelText = ", ".intercalate (branch.operands condText labelText) := by
  cases branch <;> rfl

/-- The instructions of a block and then its branch. -/
def Block.pieces (spelling : Spelling Inst Cond) (labelText : L → String) (block : Block Inst Cond L) :
    List String :=
  block.insts.map spelling.inst ++ [block.branch.render spelling.cond labelText]

theorem Block.render_eq_intercalate (spelling : Spelling Inst Cond) (block : Block Inst Cond L) :
    block.render spelling labelText = "; ".intercalate (block.pieces spelling labelText) := by
  rw [pieces, ← join_append_eq_intercalate, List.map_map]
  rfl

/-- A block with other labels is written as the block, with the texts of the other labels. -/
theorem Block.render_mapLabels {M : Type} (spelling : Spelling Inst Cond) (rename : M → L)
    (block : Block Inst Cond M) :
    (block.mapLabels rename).render spelling labelText =
      block.render spelling (labelText ∘ rename) := by
  obtain ⟨insts, branch⟩ := block
  cases branch <;> rfl

/-- A branch is known by its operands. -/
theorem Branch.operands_injective (condInjective : Function.Injective condText)
    (labelInjective : Function.Injective labelText) :
    Function.Injective (Branch.operands condText labelText) := by
  intro left right same
  have apart (text : String) : "jmp " ++ text ≠ "halt" := ne_of_head?_ne (by simp)
  cases left with
  | jump target =>
    cases right with
    | jump other =>
      simp only [operands, List.cons.injEq, String.append_right_inj, and_true] at same
      rw [labelInjective same]
    | conditional => simp [operands] at same
    | halt => simp [operands, apart] at same
  | conditional test whenTrue whenFalse =>
    cases right with
    | jump => simp [operands] at same
    | conditional =>
      simp only [operands, List.cons.injEq, String.append_right_inj, and_true] at same
      obtain ⟨tests, trues, falses⟩ := same
      rw [condInjective tests, labelInjective trues, labelInjective falses]
    | halt => simp [operands] at same
  | halt =>
    cases right with
    | jump other => simp [operands, (apart _).symm] at same
    | conditional => simp [operands] at same
    | halt => rfl

variable {spelling : Spelling Inst Cond} (legible : spelling.Legible)
  (labelAvoids : ∀ label, Avoids [',', ';', '\n'] (labelText label))

include legible labelAvoids

/-- Operands have none of the separators around them. -/
theorem Branch.operands_avoid (branch : Branch Cond L) :
    ∀ operand ∈ branch.operands spelling.cond labelText, Avoids [',', ';', '\n'] operand := by
  have cond := legible.cond_avoids
  cases branch <;>
    simp only [operands, List.forall_mem_cons, avoids_append, labelAvoids, cond, and_true] <;>
      simp [Avoids]

/-- Neither have the pieces of a block. -/
theorem Block.pieces_avoid (block : Block Inst Cond L) :
    ∀ piece ∈ block.pieces spelling labelText, Avoids [';', '\n'] piece := by
  intro piece member
  obtain written | last := List.mem_append.mp member
  · obtain ⟨inst, -, rfl⟩ := List.mem_map.mp written
    exact legible.inst_avoids inst
  · obtain rfl := List.mem_singleton.mp last
    rw [Branch.render_eq_intercalate]
    apply avoids_intercalate
    · simp [Avoids]
    · intro operand member
      exact (block.branch.operands_avoid legible labelAvoids operand member).mono (by decide)

/-- A block is written in one line. -/
theorem Block.avoids_render (block : Block Inst Cond L) :
    Avoids ['\n'] (block.render spelling labelText) := by
  rw [render_eq_intercalate]
  apply avoids_intercalate
  · simp [Avoids]
  · intro piece member
    exact (block.pieces_avoid legible labelAvoids piece member).mono (by decide)

variable (labelInjective : Function.Injective labelText)

include labelInjective

/-- A branch is known by its text. -/
theorem Branch.render_injective : Function.Injective (Branch.render spelling.cond labelText) := by
  intro left right same
  have nonempty (branch : Branch Cond L) : branch.operands spelling.cond labelText ≠ [] := by
    cases branch <;> exact List.cons_ne_nil _ _
  rw [render_eq_intercalate, render_eq_intercalate] at same
  exact operands_injective legible.cond_injective labelInjective
    (pieces_eq_of_intercalate_eq ',' (by simp) (.head _) (left.operands_avoid legible labelAvoids)
      (right.operands_avoid legible labelAvoids) (nonempty left) (nonempty right) same)

/-- A block is known by its text. -/
theorem Block.render_injective : Function.Injective (Block.render spelling labelText) := by
  intro left right same
  rw [render_eq_intercalate, render_eq_intercalate] at same
  have pieces := pieces_eq_of_intercalate_eq ';' (by simp) (.head _)
    (left.pieces_avoid legible labelAvoids) (right.pieces_avoid legible labelAvoids)
    (List.concat_ne_nil _ _) (List.concat_ne_nil _ _) same
  obtain ⟨insts, branches⟩ := List.append_inj' pieces rfl
  apply Block.ext
  · exact (List.map_inj_right fun _ _ same => legible.inst_injective same).mp insts
  · exact Branch.render_injective legible labelAvoids labelInjective (List.singleton_inj.mp branches)

end Blocks

namespace Fragment

variable {spelling : Spelling Inst Cond} {left right : Fragment Inst Cond}

/-- The sizes in the first line, with the words around them. -/
def headerPieces (fragment : Fragment Inst Cond) : List String :=
  ["unit (internal: " ++ toString fragment.internal.count,
    "inputs: " ++ toString fragment.inputs.count,
    "outputs: " ++ toString fragment.outputs.count ++ ") \x7b"]

theorem header_eq_intercalate (fragment : Fragment Inst Cond) :
    fragment.header = ", ".intercalate fragment.headerPieces := by
  have spelled : fragment.header =
      "unit (" ++ ("internal: " ++ toString fragment.internal.count ++ ", inputs: " ++
        toString fragment.inputs.count ++ ", outputs: " ++ toString fragment.outputs.count) ++
          ") \x7b" := rfl
  rw [spelled, ← String.toList_inj]
  simp [headerPieces]

theorem headerPieces_avoid (fragment : Fragment Inst Cond) :
    ∀ piece ∈ fragment.headerPieces, Avoids [',', '\n'] piece := by
  have digits : ∀ number : Nat, Avoids [',', '\n'] (toString number) := avoids_natural (by simp)
  simp only [headerPieces, List.forall_mem_cons, avoids_append, digits, and_true]
  simp [Avoids]

/-- The first line gives the sizes. -/
theorem sizes_eq_of_header_eq (same : left.header = right.header) :
    left.internal = right.internal ∧ left.inputs = right.inputs ∧ left.outputs = right.outputs := by
  rw [header_eq_intercalate, header_eq_intercalate] at same
  have pieces := pieces_eq_of_intercalate_eq ',' (by simp) (.head _) left.headerPieces_avoid
    right.headerPieces_avoid (List.cons_ne_nil _ _) (List.cons_ne_nil _ _) same
  simp only [headerPieces, List.cons.injEq, String.append_right_inj, String.append_left_inj,
    and_true] at pieces
  obtain ⟨internal, inputs, outputs⟩ := pieces
  exact ⟨Size.ext (Nat.repr_inj.mp internal), Size.ext (Nat.repr_inj.mp inputs),
    Size.ext (Nat.repr_inj.mp outputs)⟩

theorem targetPlace_congr (internal : left.internal = right.internal) :
    left.targetPlace = right.targetPlace := by
  funext label
  rw [targetPlace, targetPlace, internal]

theorem entryPlace_congr (internal : left.internal = right.internal) :
    left.entryPlace = right.entryPlace := by
  funext label
  rw [entryPlace, entryPlace, internal]

/-- The text of a block in a fragment, in which labels are places. -/
def blockText (spelling : Spelling Inst Cond) (fragment : Fragment Inst Cond)
    (block : Block Inst Cond Label) : String :=
  block.render spelling (Place.text ∘ fragment.targetPlace)

theorem blockLine_eq (fragment : Fragment Inst Cond) (label : Label)
    (block : Block Inst Cond Label) :
    fragment.blockLine spelling label block =
      "  " ++ (fragment.entryPlace label).text ++ ": " ++ fragment.blockText spelling block := by
  rw [blockText, ← Block.render_mapLabels]
  rfl

/-- No line of a text goes on in another one. -/
theorem lines_avoid (legible : spelling.Legible) (fragment : Fragment Inst Cond) :
    ∀ line ∈ fragment.lines spelling, Avoids ['\n'] line := by
  have header : Avoids ['\n'] fragment.header := by
    rw [header_eq_intercalate]
    apply avoids_intercalate
    · simp [Avoids]
    · exact fun piece member => (fragment.headerPieces_avoid piece member).mono (by decide)
  have block (label : Label) (block : Block Inst Cond Label) :
      Avoids ['\n'] (fragment.blockLine spelling label block) := by
    have place : Avoids ['\n'] (fragment.entryPlace label).text :=
      (fragment.entryPlace label).avoids_text.mono (by decide)
    have text : Avoids ['\n'] (fragment.blockText spelling block) :=
      Block.avoids_render legible (fun label => (fragment.targetPlace label).avoids_text) block
    simp only [blockLine_eq, avoids_append, place, text, and_true]
    simp [Avoids]
  intro line member
  simp only [lines, List.cons_append, List.mem_cons, List.mem_append, List.mem_map,
    List.not_mem_nil, or_false] at member
  obtain rfl | ⟨⟨written, index⟩, -, rfl⟩ | rfl := member
  · exact header
  · exact block ⟨index⟩ written
  · simp [Avoids]

/-- A line for a block gives the block, when it is known how many labels are hidden. -/
theorem block_eq_of_blockLine_eq (legible : spelling.Legible)
    (internal : left.internal = right.internal) {label : Label} {block other : Block Inst Cond Label}
    (same : left.blockLine spelling label block = right.blockLine spelling label other) :
    block = other := by
  have blockInjective := Block.render_injective legible
    (fun label => (right.targetPlace label).avoids_text)
    (Place.text_injective.comp right.targetPlace_injective)
  rw [blockLine_eq, blockLine_eq, entryPlace_congr internal, String.append_right_inj, blockText,
    targetPlace_congr internal] at same
  exact blockInjective same

/-- The lines for the blocks give the blocks. -/
theorem blocks_eq_of_lines_eq (legible : spelling.Legible) (internal : left.internal = right.internal)
    (same : (left.code.blocks.toList.zipIdx.map fun (block, index) =>
        left.blockLine spelling ⟨index⟩ block) =
      right.code.blocks.toList.zipIdx.map fun (block, index) =>
        right.blockLine spelling ⟨index⟩ block) :
    left.code.blocks = right.code.blocks := by
  have count := congrArg List.length same
  simp only [List.length_map, List.length_zipIdx] at count
  apply Array.toList_inj.mp
  apply List.ext_getElem count
  intro index leftBound rightBound
  have line := List.getElem_of_eq same (i := index) (by simpa using leftBound)
  simp only [List.getElem_map, List.getElem_zipIdx, Nat.zero_add] at line
  exact block_eq_of_blockLine_eq legible internal line

/-- If an instruction set can be read, fragments are known by their texts. -/
theorem render_inj_of_legible (legible : spelling.Legible) :
    left.render spelling = right.render spelling ↔ left = right := by
  constructor
  · intro same
    have lines := pieces_eq_of_intercalate_eq '\n' (by simp) (.head _) (left.lines_avoid legible)
      (right.lines_avoid legible) (by simp [lines]) (by simp [lines]) same
    simp only [Fragment.lines, List.cons_append, List.cons.injEq, List.append_cancel_right_eq]
      at lines
    obtain ⟨header, blockLines⟩ := lines
    obtain ⟨internal, inputs, outputs⟩ := sizes_eq_of_header_eq header
    have blocks := blocks_eq_of_lines_eq legible internal blockLines
    have exits : left.code.exits = right.code.exits := by
      apply Size.ext
      rw [left.exits_eq, right.exits_eq, internal, outputs]
    exact Fragment.ext internal inputs outputs (BlockMap.ext exits blocks)
  · rintro rfl
    rfl

end Fragment

end Flowgraph
