import Flowgraph.Proofs.Fragment.Interface
import Flowgraph.Proofs.Fragment.Reachable
import Flowgraph.Proofs.Raw.BlockMap
import Flowgraph.Proofs.Word.Operations

/-!
# Machine words are enough

No operation of `Word` breaks down: each does what the operation on natural numbers does, and refuses what
that one refuses. What is added is a label inside its space, or the size of that space, to the size of a space
in front of it. Both spaces together have a size: either it has been looked for before, or they are all that
some code has entries for. What is subtracted is a border, and only from what has turned out to lie behind it.
-/

namespace Flowgraph

variable {Inst Cond State Fault : Type}

namespace Word

section Arithmetic

variable {left right total whole part rest : Nat} {label : Label} {offset : Nat}

/-- Words are added without loss exactly when the sum is below the limit. -/
theorem add_eq_ok_iff :
    add left right = .ok total ↔ total = left + right ∧ left + right < Size.limit := by
  unfold add
  split <;> simp_all [eq_comm]

/-- Words are subtracted without loss exactly when the difference is not negative. -/
theorem sub_eq_ok_iff : sub whole part = .ok rest ↔ whole = rest + part := by
  unfold sub
  split
  · simp only [Except.ok.injEq]
    omega
  · simp only [reduceCtorEq, false_iff]
    omega

theorem forward_eq_ok (fits : offset + label.index < Size.limit) :
    forward label offset = .ok (label.shift offset) := by
  rw [forward, add_eq_ok_iff.mpr ⟨rfl, fits⟩]
  rfl

theorem back_eq_ok (behind : offset ≤ label.index) :
    back label offset = .ok ⟨label.index - offset⟩ := by
  rw [back, sub_eq_ok_iff.mpr (Nat.sub_add_cancel behind).symm]
  rfl

theorem diff_eq_ok {whole part : Size} (inside : part.count ≤ whole.count) :
    diff whole part = .ok (whole.diff part) := by
  rw [diff, sub_eq_ok_iff.mpr (Nat.sub_add_cancel inside).symm]
  rfl

end Arithmetic

section Labels

/-- A label that is not in the left summand lies behind it. -/
theorem split_eq (label : Label) (left right : Size) :
    split label left right = .ok (label.split left right) := by
  have steps : label.split left right = (left.sum right >>= label.check) >>= fun label =>
      if label.Within left then pure (.inl label)
      else pure (.inr ⟨label.index - left.count⟩) := by
    rw [bind_assoc]
    rfl
  rw [split, steps]
  cases left.sum right >>= label.check with
  | error error => rfl
  | ok checked =>
    rw [ok_bind]
    by_cases inside : checked.Within left
    · simp only [if_pos inside]
      rfl
    · simp only [if_neg inside, back_eq_ok (Nat.not_lt.mp inside)]
      rfl

/-- A label of the right summand, moved behind the left one, is below the size of the sum. -/
theorem inr_eq (label : Label) (left right : Size) :
    inr label left right = .ok (label.inr left right) := by
  have steps : label.inr left right = (left.sum right >>= fun _ => label.check right) >>= fun label =>
      pure (label.shift left.count) := by
    rw [bind_assoc]
    rfl
  rw [inr, steps]
  cases outcome : left.sum right >>= fun _ => label.check right with
  | error error => rfl
  | ok checked =>
    obtain ⟨total, sum, checks⟩ := bind_eq_ok_iff.mp outcome
    obtain ⟨inside, rfl⟩ := Label.check_eq_ok_iff.mp checks
    have fits : left.count + checked.index < Size.limit :=
      calc
        left.count + checked.index < left.count + right.count := Nat.add_lt_add_left inside _
        _ = total.count := (Size.sum_eq_ok_iff.mp sum).symm
        _ < Size.limit := total.fits
    simp only [forward_eq_ok fits]
    rfl

end Labels

section Renamings

/-- Labels of the left summand move by the size of the right one, and stay below the size of the sum;
the others lie behind the left summand, and move back by its size. -/
theorem swap_eq (a b : Size) : swap a b = .ok ((Renaming.swap a b).map Renaming.parts) := by
  unfold swap
  cases sum : a.sum b with
  | error error =>
    have failed : Renaming.swap a b = .error error :=
      Renaming.swap_eq_error_iff.mpr (Size.sum_eq_error_iff.mp sum)
    rw [failed]
    rfl
  | ok total =>
    have count := Size.sum_eq_ok_iff.mp sum
    have fits := total.fits
    obtain ⟨exchange, made⟩ := Renaming.exists_swap a b (count ▸ fits)
    obtain ⟨codomain, images⟩ := Renaming.swap_eq_ok_iff.mp made
    have moved : (Array.range total.count).mapM (fun index =>
        if index < a.count then forward ⟨index⟩ b.count else back ⟨index⟩ a.count) =
          .ok exchange.images := by
      refine mapM_array_eq_ok (by simp [images, count]) fun index inside placed => ?_
      rw [Array.size_range] at inside
      simp only [Array.getElem_range, images, Array.getElem_ofFn]
      split
      · exact forward_eq_ok (show b.count + index < Size.limit by omega)
      · exact back_eq_ok (Nat.not_lt.mp ‹_›)
    have parts : (total, exchange.images) = exchange.parts :=
      Prod.ext (Size.ext (count.trans codomain.symm)) rfl
    simp only [moved, made, ok_bind]
    exact congrArg (fun pair => Except.ok (Except.ok pair)) parts

/-- The images on the right are moved by the size of the first codomain, and stay below that of both. -/
theorem sum_eq (table other : Renaming) :
    sum table other = .ok ((table.sum other).map Renaming.parts) := by
  unfold sum
  cases codomains : table.codomain.sum other.codomain with
  | error error =>
    obtain ⟨wide, same⟩ := Size.sum_eq_error_iff.mp codomains
    rw [Renaming.sum_eq_error_iff.mpr ⟨.inl wide, same⟩]
    rfl
  | ok codomain =>
    cases domains : table.domain.sum other.domain with
    | error error =>
      obtain ⟨wide, same⟩ := Size.sum_eq_error_iff.mp domains
      rw [Renaming.sum_eq_error_iff.mpr ⟨.inr wide, same⟩]
      rfl
    | ok domain =>
      have count := Size.sum_eq_ok_iff.mp codomains
      have fits := codomain.fits
      have domainCount := Size.sum_eq_ok_iff.mp domains
      obtain ⟨total, made⟩ := table.exists_sum other (count ▸ fits) (domainCount ▸ domain.fits)
      obtain ⟨size, images⟩ := Renaming.sum_eq_ok_iff.mp made
      have moved : other.images.mapM (forward · table.codomain.count) =
          .ok (other.images.map (·.shift table.codomain.count)) := by
        refine mapM_array_eq_ok (by simp) fun index inside placed => ?_
        have image : other.images[index].index < other.codomain.count :=
          other.images_within _ (Array.getElem_mem inside)
        rw [Array.getElem_map]
        exact forward_eq_ok (by omega)
      have parts : (codomain, table.images ++ other.images.map (·.shift table.codomain.count)) =
          total.parts := Prod.ext (Size.ext (count.trans size.symm)) images.symm
      simp only [moved, made, ok_bind]
      exact congrArg (fun pair => Except.ok (Except.ok pair)) parts

end Renamings

section Fragments

variable (fragment : Fragment Inst Cond)

theorem codeLabel_eq (entry : Label) :
    codeLabel fragment entry = .ok ((fragment.codeLabel entry).map Subtype.val) := by
  unfold codeLabel Fragment.codeLabel
  by_cases inside : entry.Within fragment.inputs
  · have fits : fragment.internal.count + entry.index < Size.limit :=
      Nat.lt_trans (Nat.add_lt_add_left inside _) fragment.counts_fit.1
    rw [dif_pos inside, Label.check_of_within inside]
    simp only [forward_eq_ok fits]
    rfl
  · rw [dif_neg inside, Label.check_of_not_within inside]
    rfl

/-- What is left of the labels up to some border when those before another one are dropped. -/
theorem drop_range_add (hidden visible : Nat) :
    (Label.range (hidden + visible)).drop hidden = (Label.range visible).map (·.shift hidden) := by
  simp only [Label.range, List.range_add, List.map_append, List.map_map]
  rw [List.drop_left' (by simp)]
  rfl

theorem reachable_eq : reachable fragment = .ok fragment.reachable := by
  rw [reachable, add_eq_ok_iff.mpr ⟨rfl, fragment.counts_fit.1⟩]
  simp only [ok_bind, drop_range_add]
  rfl

/-- Sizes are subtracted only after it is known that no more labels are linked than there are. -/
theorem link_eq (linked : Size) : link fragment linked = .ok (fragment.link linked) := by
  unfold link
  split
  · rename_i fitting
    obtain ⟨inputsWide, outputsWide⟩ := fitting
    rw [fragment.link_eq_regroup inputsWide outputsWide, diff_eq_ok inputsWide,
      diff_eq_ok outputsWide]
    rfl
  · rename_i wide
    rw [Fragment.link, dif_neg wide]
    rfl

/-- From a label with a block on, a run comes only to labels with a block, and to exits behind the hidden
labels. -/
theorem runFrom_eq (machine : Machine Inst Cond State Fault) (fuel : Nat)
    (label : fragment.CodeLabel) (visited : Array Label) (state : State) :
    runFrom fragment machine fuel label.val visited state =
      .ok (fragment.runFrom machine fuel label visited state) := by
  induction fuel generalizing label visited state with
  | zero => rfl
  | succ fuel inductionHypothesis =>
    have found : fragment.code.get? label.val = some (fragment.blockAt label) :=
      fragment.code.get?_eq_some_block label.property
    rw [runFrom, Fragment.runFrom, found]
    simp only
    cases ((fragment.blockAt label).exec machine).run state with
    | error fault after => rfl
    | ok answer after =>
      cases answer with
      | none => rfl
      | some target =>
        by_cases hidden : target.Within fragment.internal
        · simp only [if_pos hidden, dif_pos hidden]
          exact inductionHypothesis ⟨target, fragment.within_entries_of_hidden hidden⟩ _ after
        · simp only [if_neg hidden, dif_neg hidden, back_eq_ok (Nat.not_lt.mp hidden)]
          rfl

theorem run_eq (machine : Machine Inst Cond State Fault) (entry : Label) (fuel : Nat)
    (state : State) :
    run fragment machine entry fuel state = .ok (fragment.run machine entry fuel state) := by
  rw [run, codeLabel_eq, Fragment.run]
  cases fragment.codeLabel entry with
  | error error => rfl
  | ok label => exact runFrom_eq fragment machine fuel label #[] state

/-- A label that is not hidden lies behind the hidden ones. -/
theorem place_eq (visible : Nat → Place) (label : Label) :
    place fragment visible label =
      .ok (if label.Within fragment.internal then .hidden label.index
        else visible (label.index - fragment.internal.count)) := by
  unfold place
  split
  · rfl
  · rename_i behind
    rw [sub_eq_ok_iff.mpr (Nat.sub_add_cancel (Nat.not_lt.mp behind)).symm]
    rfl

theorem blockLine_eq (spelling : Spelling Inst Cond) (label : Label)
    (block : Block Inst Cond Label) :
    blockLine spelling fragment label block = .ok (fragment.blockLine spelling label block) := by
  have targets : block.mapLabelsM (place fragment .exit) =
      .ok (block.mapLabels fragment.targetPlace) :=
    Block.mapLabelsM_eq_ok fun target _ => place_eq fragment .exit target
  rw [blockLine, targets, place_eq]
  rfl

theorem lines_eq (spelling : Spelling Inst Cond) :
    lines spelling fragment = .ok (fragment.lines spelling) := by
  have blocks : (fragment.code.blocks.toList.zipIdx.mapM fun entry =>
      blockLine spelling fragment ⟨entry.2⟩ entry.1) =
        .ok (fragment.code.blocks.toList.zipIdx.map fun entry =>
          fragment.blockLine spelling ⟨entry.2⟩ entry.1) := by
    rw [mapM_list_eq_ok_iff, List.forall₂_map_right_iff, List.forall₂_same]
    exact fun entry _ => blockLine_eq fragment spelling ⟨entry.2⟩ entry.1
  rw [lines, blocks]
  rfl

end Fragments

/-- Nothing that is computed in machine words wraps around: each operation on labels, renamings and
fragments comes to what it comes to in natural numbers, be it a result or an error, whatever it is given. -/
theorem never_breaks_down :
    (∀ (label : Label) (left right : Size),
      split label left right = .ok (label.split left right) ∧
        inr label left right = .ok (label.inr left right)) ∧
    (∀ a b : Size, swap a b = .ok ((Renaming.swap a b).map Renaming.parts)) ∧
    (∀ table other : Renaming, sum table other = .ok ((table.sum other).map Renaming.parts)) ∧
    ∀ fragment : Fragment Inst Cond,
      (∀ entry, codeLabel fragment entry = .ok ((fragment.codeLabel entry).map Subtype.val)) ∧
      reachable fragment = .ok fragment.reachable ∧
      (∀ linked, link fragment linked = .ok (fragment.link linked)) ∧
      (∀ (machine : Machine Inst Cond State Fault) (entry : Label) (fuel : Nat) (state : State),
        run fragment machine entry fuel state = .ok (fragment.run machine entry fuel state)) ∧
      ∀ spelling, lines spelling fragment = .ok (fragment.lines spelling) :=
  ⟨fun label left right => ⟨split_eq label left right, inr_eq label left right⟩, swap_eq, sum_eq,
    fun fragment => ⟨codeLabel_eq fragment, reachable_eq fragment, link_eq fragment, run_eq fragment,
      lines_eq fragment⟩⟩

end Word

end Flowgraph
