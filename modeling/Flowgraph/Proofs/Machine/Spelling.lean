import Flowgraph.Machine.Register
import Flowgraph.Proofs.Fragment.Printer

/-!
# How the register machine is read

The instructions of the register machine have operands with a comma and a blank between them, as branches
have, and they are read in the same way. So the register machine can be read, and fragments for it are
known by their texts.
-/

namespace Flowgraph.Register

open Text

/-- The operands of an instruction, the first one with the word in front that tells the kind. -/
def Inst.operands : Inst → List String
  | set register value => ["set r" ++ toString register, toString value.toInt]
  | add register value => ["add r" ++ toString register, toString value.toInt]
  | emit register => ["emit r" ++ toString register]

theorem spelling_inst_eq_intercalate (inst : Inst) :
    spelling.inst inst = ", ".intercalate inst.operands := by
  cases inst <;> rfl

/-- Operands have none of the separators around them. -/
theorem Inst.operands_avoid (inst : Inst) :
    ∀ operand ∈ inst.operands, Avoids [',', ';', '\n'] operand := by
  have register : ∀ register : Nat, Avoids [',', ';', '\n'] (toString register) :=
    avoids_natural (by simp)
  have value : ∀ value : Int, Avoids [',', ';', '\n'] (toString value) :=
    avoids_integer (by simp) (by simp)
  cases inst <;>
    simp only [operands, List.forall_mem_cons, avoids_append, register, value, and_true] <;>
      simp [Avoids]

/-- An instruction is known by its operands. -/
theorem Inst.operands_injective : Function.Injective Inst.operands := by
  intro left right same
  have apart (register other : Nat) : "set r" ++ register.repr ≠ "add r" ++ other.repr :=
    ne_of_head?_ne (by simp)
  cases left with
  | set register value =>
    cases right with
    | set other after =>
      simp_all [operands, String.append_right_inj, Nat.repr_inj, Int.repr_inj, Int64.toInt_inj]
    | add other after => simp [operands, apart] at same
    | emit other => simp [operands] at same
  | add register value =>
    cases right with
    | set other after => simp [operands, (apart _ _).symm] at same
    | add other after =>
      simp_all [operands, String.append_right_inj, Nat.repr_inj, Int.repr_inj, Int64.toInt_inj]
    | emit other => simp [operands] at same
  | emit register =>
    cases right with
    | set other after => simp [operands] at same
    | add other after => simp [operands] at same
    | emit other => simp_all [operands, String.append_right_inj, Nat.repr_inj]

/-- The register machine can be read. -/
theorem legible_spelling : spelling.Legible where
  inst_injective left right same := by
    rw [spelling_inst_eq_intercalate, spelling_inst_eq_intercalate] at same
    have nonempty (inst : Inst) : inst.operands ≠ [] := by
      cases inst <;> exact List.cons_ne_nil _ _
    exact Inst.operands_injective (pieces_eq_of_intercalate_eq ',' (by simp) (.head _)
      left.operands_avoid right.operands_avoid (nonempty left) (nonempty right) same)
  cond_injective left right same := Int.ofNat_inj.mp (Int.repr_inj.mp same)
  inst_avoids inst := by
    rw [spelling_inst_eq_intercalate]
    apply avoids_intercalate
    · simp [Avoids]
    · intro operand member
      exact (inst.operands_avoid operand member).mono (by decide)
  cond_avoids register := avoids_integer (by simp) (by simp) register

/-- Fragments for the register machine are known by their texts. -/
theorem render_inj (left right : Fragment Inst Cond) :
    left.render spelling = right.render spelling ↔ left = right :=
  Fragment.render_inj_of_legible legible_spelling

end Flowgraph.Register
