import ThreadedCode.Sink
import ThreadedCode.Trace

/-!
# Running out of room

A run that puts items into a sink of limited room fails when the sink does. It is described here by
the items that it puts into a sink that takes them all, and by how it goes on behind them. In a sink
of limited room it leaves as many of the items as fit, and it goes on only if all of them do. Runs
that are described in this way can be put one after the other, so that the place where the sink
fails need not be looked for.
-/

namespace ThreadedCode

namespace Trace

variable {ι β ε α γ : Type} {view : List ι → List β} {full : ε} {room : Room}
  {items more : List β}

/-- The run puts the items into the sink as far as there is room, which shows in the view of what it
emits. If there was room for all, it goes on with what is left of it. -/
structure Fills (view : List ι → List β) (full : ε) (room : Room) (items : List β)
    (run : Trace ι ε α) (onward : Room → Except ε α) : Prop where
  emitted : view run.emitted = (room.fill items).1
  outcome : run.outcome = (room.fill items).2.elim (.error full) onward

namespace Fills

/-- A run that puts nothing into the sink. -/
theorem nothing (empty : view [] = []) (room : Room) (onward : Room → Except ε α) :
    Fills view full room [] (ofExcept (onward room)) onward :=
  ⟨empty, rfl⟩

/-- Two runs fill the sink with the items of both, if the first one leaves room for the second. -/
theorem bind (joins : ∀ left right, view (left ++ right) = view left ++ view right)
    {run : Trace ι ε α} {value : Room → α} {next : α → Trace ι ε γ} {onward : Room → Except ε γ}
    (first : Fills view full room items run fun left => .ok (value left))
    (second : ∀ left, Fills view full left more (next (value left)) onward) :
    Fills view full room (items ++ more) (run >>= next) onward := by
  obtain ⟨emitted, outcome⟩ := run
  obtain ⟨shown, ended⟩ := first
  have joined := room.fill_append items more
  cases filled : room.fill items with
  | mk taken left? =>
      rw [filled] at shown ended joined
      cases left? with
      | none =>
          obtain rfl : outcome = .error full := ended
          rw [bind_error]
          constructor
          · rw [joined]
            exact shown
          · rw [joined]
            rfl
      | some left =>
          obtain rfl : outcome = .ok (value left) := ended
          obtain ⟨shownMore, endedMore⟩ := second left
          rw [bind_ok]
          constructor
          · rw [joined, joins, shown, shownMore]
          · rw [joined]
            exact endedMore

section Results

variable {run : Trace ι ε α} {onward : Room → Except ε α} {limit : Nat}

theorem unlimited (fills : Fills view full .unlimited items run onward) :
    view run.emitted = items ∧ run.outcome = onward .unlimited := by
  obtain ⟨shown, ended⟩ := fills
  rw [Room.fill_unlimited] at shown ended
  exact ⟨shown, ended⟩

/-- The sink keeps the items at the front that it has room for. -/
theorem emitted_limited (fills : Fills view full ⟨some limit⟩ items run onward) :
    view run.emitted = items.take (min limit items.length) := by
  rw [fills.emitted, Room.fill_limited, List.take_eq_take_min]

theorem outcome_of_le (fills : Fills view full ⟨some limit⟩ items run onward)
    (fits : items.length ≤ limit) : run.outcome = onward ⟨some (limit - items.length)⟩ := by
  rw [fills.outcome, Room.fill_limited, if_pos fits]
  rfl

theorem outcome_of_lt (fills : Fills view full ⟨some limit⟩ items run onward)
    (short : limit < items.length) : run.outcome = .error full := by
  rw [fills.outcome, Room.fill_limited, if_neg (Nat.not_le.mpr short)]
  rfl

/-- The sink fails exactly if it has too little room, where nothing else fails in the same way. -/
theorem full_iff (fills : Fills view full ⟨some limit⟩ items run onward)
    (apart : ∀ left, onward left ≠ .error full) :
    run.outcome = .error full ↔ limit < items.length := by
  refine ⟨fun failed => Nat.lt_of_not_le fun fits => ?_, fills.outcome_of_lt⟩
  exact apart _ ((fills.outcome_of_le fits).symm.trans failed)

/-- Everything goes on exactly if there is room for all. -/
theorem onward_iff (fills : Fills view full ⟨some limit⟩ items run onward)
    (apart : ∀ left, onward left ≠ .error full) :
    run.outcome = onward ⟨some (limit - items.length)⟩ ↔ items.length ≤ limit := by
  refine ⟨fun same => Nat.le_of_not_lt fun short => ?_, fills.outcome_of_le⟩
  exact apart _ (same.symm.trans (fills.outcome_of_lt short))

end Results

end Fills

end Trace

end ThreadedCode
