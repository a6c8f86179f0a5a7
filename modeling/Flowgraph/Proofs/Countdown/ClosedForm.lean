import Flowgraph.Proofs.Run.Chain
import Flowgraph.Proofs.Text.Separated

/-!
# The countdown in closed form

What the program says can be told without running it: `speech` lists the lines, `path` lists the blocks, and
`blocksNeeded` counts them. With that much fuel or more, the program says all of it and halts; with less, it
says the beginning of it, which is `interrupted`, and runs out of fuel.

The program is put together from three fragments, and `program_eq` shows the result, with the labels that its
blocks have there. Each block has a statement that says what it does to the counter and the lines spoken so
far. The loop is followed by induction on the fuel, with whatever has been spoken before it, and the two
blocks that lead to it are put in front.
-/

namespace Flowgraph.Countdown

section Speech

/-- A text, and a counter in parentheses. -/
def line (text : String) (count : Nat) : String := s!"{text} ({count})"

/-- How often the loop is run: as often as the counter says, but at least once. -/
def rounds (count : Nat) : Nat := max count 1

/-- The line that each round says, with the counter as it stands before the round. -/
def ticks (count : Nat) : List String :=
  (List.range (rounds count)).map fun past => line "tick" (count - past)

/-- All that the program says. -/
def speech (count : Nat) : List String := line "hello" count :: ticks count ++ [line "bye" 0]

/-- What the program has said when its fuel is used up before it is done. The second block says nothing. -/
def interrupted (count fuel : Nat) : List String :=
  if fuel = 0 then [] else line "hello" count :: (ticks count).take (fuel - 2)

/-- The labels of the blocks that the program runs: two before the loop, the rounds, and the last one. -/
def path (count : Nat) : List Label := ⟨3⟩ :: ⟨1⟩ :: List.replicate (rounds count) ⟨0⟩ ++ [⟨2⟩]

/-- How many blocks the program runs. -/
def blocksNeeded (count : Nat) : Nat := rounds count + 3

variable {count : Nat}

@[simp] theorem length_ticks (count : Nat) : (ticks count).length = rounds count := by
  simp [ticks]

@[simp] theorem length_path (count : Nat) : (path count).length = blocksNeeded count := by
  simp [path, blocksNeeded]

/-- A round that leaves nothing to count is the last one. -/
theorem rounds_of_last (last : count - 1 = 0) : rounds count = 1 := by
  unfold rounds
  omega

/-- One that leaves something is one of more. -/
theorem rounds_of_more (more : count - 1 ≠ 0) : rounds count = rounds (count - 1) + 1 := by
  unfold rounds
  omega

theorem ticks_of_last (last : count - 1 = 0) : ticks count = [line "tick" count] := by
  simp [ticks, rounds_of_last last]

theorem ticks_of_more (more : count - 1 ≠ 0) :
    ticks count = line "tick" count :: ticks (count - 1) := by
  rw [ticks, rounds_of_more more, List.range_succ_eq_map, List.map_cons, List.map_map]
  refine congrArg (line "tick" count :: ·) (List.map_congr_left fun past _ => ?_)
  simp only [Function.comp_apply]
  congr 1
  omega

/-- What has been said before the fuel was used up is the beginning of all that there is to say. -/
theorem interrupted_begins_speech (count fuel : Nat) :
    interrupted count fuel <+: speech count := by
  unfold interrupted speech
  split
  · exact ⟨_, List.nil_append _⟩
  · refine ⟨(ticks count).drop (fuel - 2) ++ [line "bye" 0], ?_⟩
    rw [List.cons_append, ← List.append_assoc, List.take_append_drop, List.cons_append]

/-- It does not come to the farewell. -/
theorem bye_not_mem_interrupted (count fuel : Nat) : line "bye" 0 ∉ interrupted count fuel := by
  have hello : line "bye" 0 ≠ line "hello" count := Text.ne_of_head?_ne (by simp [line, toString])
  have tick (left : Nat) : line "bye" 0 ≠ line "tick" left :=
    Text.ne_of_head?_ne (by simp [line, toString])
  unfold interrupted
  split
  · exact List.not_mem_nil
  · rw [List.mem_cons, not_or]
    refine ⟨hello, fun member => ?_⟩
    obtain ⟨past, -, same⟩ := List.mem_map.mp (List.mem_of_mem_take member)
    exact tick _ same.symm

end Speech

section Blocks

/-- The program as it comes out: the loop, the block that leads into it, the farewell, and the greeting as
the only entry. -/
def assembled : Fragment Inst Cond where
  internal := 3
  inputs := 1
  outputs := 0
  code := {
    exits := 3
    blocks := #[⟨[.say "tick", .dec], .conditional () ⟨0⟩ ⟨2⟩⟩, ⟨[], .jump ⟨0⟩⟩,
      ⟨[.say "bye"], .halt⟩, ⟨[.say "hello"], .jump ⟨1⟩⟩]
    entries_fit := by decide
    targets_within := by decide }
  entries_eq := by decide
  exits_eq := by decide

theorem program_eq : program = .ok assembled := by cbv

variable (count : Nat) (spoken : Array String)

theorem executes_hello :
    assembled.Executes machine ⟨3⟩ ⟨count, spoken⟩
      (.ok (some ⟨1⟩) ⟨count, spoken.push (line "hello" count)⟩) :=
  ⟨_, rfl, rfl⟩

theorem executes_start :
    assembled.Executes machine ⟨1⟩ ⟨count, spoken⟩ (.ok (some ⟨0⟩) ⟨count, spoken⟩) :=
  ⟨_, rfl, rfl⟩

/-- A round speaks before it counts, and asks after it whether anything is left. -/
theorem executes_loop :
    assembled.Executes machine ⟨0⟩ ⟨count, spoken⟩
      (.ok (some (if count - 1 != 0 then ⟨0⟩ else ⟨2⟩))
        ⟨count - 1, spoken.push (line "tick" count)⟩) :=
  ⟨_, rfl, rfl⟩

theorem executes_bye :
    assembled.Executes machine ⟨2⟩ ⟨count, spoken⟩
      (.ok none ⟨count, spoken.push (line "bye" count)⟩) :=
  ⟨_, rfl, rfl⟩

end Blocks

section Runs

/-- What a run comes to that goes along some blocks, says a line with each, counts down, and halts with the
last one, as far as the fuel goes. -/
def recital (labels : List Label) (lines : List String) (count fuel : Nat) (spoken : Array String) :
    Run State Empty where
  verdict := if labels.length ≤ fuel then .ok .halt else .error (.outOfFuel fuel)
  visited := (labels.take fuel).toArray
  state := ⟨count - fuel, spoken ++ (lines.take fuel).toArray⟩

/-- Without fuel, it does not begin. -/
theorem recital_zero {labels : List Label} (nonempty : labels ≠ []) (lines : List String)
    (count : Nat) (spoken : Array String) :
    recital labels lines count 0 spoken = ⟨.error (.outOfFuel 0), #[], ⟨count, spoken⟩⟩ := by
  simp [recital, nonempty]

/-- With some, it is the first block, and then what follows with one block of fuel less. -/
theorem recital_succ (label : Label) (labels : List Label) (text : String) (lines : List String)
    (count fuel : Nat) (spoken : Array String) :
    recital (label :: labels) (text :: lines) count (fuel + 1) spoken =
      (recital labels lines (count - 1) fuel (spoken.push text)).after #[label] := by
  by_cases enough : labels.length ≤ fuel
  · simp [recital, enough, Nat.sub_sub, Nat.add_comm]
  · simp [recital, enough, Nat.sub_sub, Nat.add_comm, RunError.after]

/-- The farewell is said when nothing is left to count. -/
theorem outcome_bye (fuel : Nat) (spoken : Array String) :
    assembled.Outcome machine ⟨2⟩ ⟨0, spoken⟩ fuel
      (recital [⟨2⟩] [line "bye" 0] 0 fuel spoken) := by
  cases fuel with
  | zero =>
    rw [recital_zero (List.cons_ne_nil _ _)]
    exact .spent rfl .start
  | succ fuel =>
    have done : recital [⟨2⟩] [line "bye" 0] 0 (fuel + 1) spoken =
        ⟨.ok .halt, #[⟨2⟩], ⟨0, spoken.push (line "bye" 0)⟩⟩ := by
      simp [recital]
    rw [done]
    exact .left (by simp) (Fragment.chainEnds_single (executes_bye 0 spoken))

/-- The loop runs its rounds and goes on to the farewell. The induction is on the fuel, with any counter
and whatever has been spoken before. -/
theorem outcome_loop (count fuel : Nat) (spoken : Array String) :
    assembled.Outcome machine ⟨0⟩ ⟨count, spoken⟩ fuel
      (recital (List.replicate (rounds count) ⟨0⟩ ++ [⟨2⟩]) (ticks count ++ [line "bye" 0]) count
        fuel spoken) := by
  induction fuel generalizing count spoken with
  | zero =>
    rw [recital_zero (by simp)]
    exact .spent rfl .start
  | succ fuel inductionHypothesis =>
    have executes := executes_loop count spoken
    by_cases last : count - 1 = 0
    · have bye := outcome_bye fuel (spoken.push (line "tick" count))
      rw [rounds_of_last last, ticks_of_last last, List.replicate_one, List.singleton_append,
        List.singleton_append, recital_succ, last]
      rw [last] at executes
      exact bye.cons executes (by decide)
    · have more := inductionHypothesis (count - 1) (spoken.push (line "tick" count))
      rw [rounds_of_more last, ticks_of_more last, List.replicate_succ, List.cons_append,
        List.cons_append, recital_succ]
      rw [if_pos (by simpa using last)] at executes
      exact more.cons executes (by decide)

/-- The rounds and the farewell, after the greeting and the block that says nothing, are the whole. -/
theorem recital_after_greeting (count fuel : Nat) :
    (recital (List.replicate (rounds count) ⟨0⟩ ++ [⟨2⟩]) (ticks count ++ [line "bye" 0]) count fuel
        #[line "hello" count]).after #[⟨3⟩, ⟨1⟩] =
      if blocksNeeded count ≤ fuel + 2 then
        ⟨.ok .halt, (path count).toArray, ⟨0, (speech count).toArray⟩⟩
      else
        ⟨.error (.outOfFuel (fuel + 2)), ((path count).take (fuel + 2)).toArray,
          ⟨count - fuel, (interrupted count (fuel + 2)).toArray⟩⟩ := by
  have counted : count ≤ rounds count := Nat.le_max_left _ _
  have needed : blocksNeeded count ≤ fuel + 2 ↔ rounds count + 1 ≤ fuel := by
    simp only [blocksNeeded]
    omega
  by_cases enough : rounds count + 1 ≤ fuel
  · have spent : count - fuel = 0 := by omega
    rw [if_pos (needed.mpr enough)]
    simp [recital, enough, path, speech, List.take_of_length_le, spent]
  · have early : fuel - rounds count = 0 := by omega
    rw [if_neg (mt needed.mp enough)]
    simp [recital, enough, path, interrupted, RunError.after, List.take_append, early,
      Nat.add_comm 2]

/-- A run from the entry, in closed form. -/
theorem run_assembled (count fuel : Nat) :
    assembled.run machine ⟨0⟩ fuel ⟨count, #[]⟩ =
      if blocksNeeded count ≤ fuel then
        ⟨.ok .halt, (path count).toArray, ⟨0, (speech count).toArray⟩⟩
      else
        ⟨.error (.outOfFuel fuel), ((path count).take fuel).toArray,
          ⟨count - (fuel - 2), (interrupted count fuel).toArray⟩⟩ := by
  rw [Fragment.run_eq_iff_outcome (by decide)]
  have hello := executes_hello count #[]
  have start := executes_start count #[line "hello" count]
  match fuel with
  | 0 => exact .spent rfl .start
  | 1 => exact .spent rfl (.next hello (by decide) .start)
  | fuel + 2 =>
    -- Two blocks have run, and the loop goes on with the rest of the fuel.
    have rest := outcome_loop count fuel #[line "hello" count]
    have whole := (rest.cons start (by decide)).cons hello (by decide)
    rw [Run.after_after] at whole
    exact recital_after_greeting count fuel ▸ whole

end Runs

/-- The countdown in closed form, for every counter and every amount of fuel. With fuel for all blocks, it
says everything and halts, and reports how many blocks it has run. With less, it runs out of fuel after the
beginning of that: it has said nothing without any fuel, the greeting with the first block, nothing more with
the second, and then a line for each block of the loop. -/
theorem transcript_closed_form (count fuel : Nat) :
    program = .ok assembled ∧
      assembled.run machine ⟨0⟩ fuel ⟨count, #[]⟩ =
        (if blocksNeeded count ≤ fuel then
          ⟨.ok .halt, (path count).toArray, ⟨0, (speech count).toArray⟩⟩
        else
          ⟨.error (.outOfFuel fuel), ((path count).take fuel).toArray,
            ⟨count - (fuel - 2), (interrupted count fuel).toArray⟩⟩) ∧
      transcript count fuel =
        (if blocksNeeded count ≤ fuel then
          ⟨0, assembled.lines spelling ++ speech count ++
            ["halted", s!"ran {blocksNeeded count} blocks"], []⟩
        else
          .failure (assembled.lines spelling ++ interrupted count fuel)
            s!"out of fuel after {fuel} blocks") ∧
      interrupted count fuel <+: speech count ∧ line "bye" 0 ∉ interrupted count fuel := by
  have ran := run_assembled count fuel
  refine ⟨program_eq, ran, ?_, interrupted_begins_speech count fuel, bye_not_mem_interrupted count fuel⟩
  rw [transcript, program_eq]
  simp only [ran]
  generalize assembled.lines spelling = text
  by_cases enough : blocksNeeded count ≤ fuel
  · simp only [if_pos enough, List.size_toArray, length_path]
    rfl
  · simp only [if_neg enough]
    rfl

example : speech 0 = ["hello (0)", "tick (0)", "bye (0)"] := by decide

example : speech 2 = ["hello (2)", "tick (2)", "tick (1)", "bye (0)"] := by decide

end Flowgraph.Countdown
