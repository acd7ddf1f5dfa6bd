/-!
# Sinks of limited room

A sink takes items one by one until its room is used up, and fails at the next one. Bytes and
characters are written to the same kind of sink.
-/

namespace ThreadedCode

/-- How many more items a sink takes, where `none` is no limit. -/
structure Room where
  left? : Option Nat
  deriving DecidableEq, Repr

namespace Room

/-- Room for any number of items. -/
def unlimited : Room := ⟨none⟩

/-- Room after one more item, if there was any. -/
def shrink? (room : Room) : Option Room :=
  match room.left? with
  | none => some room
  | some 0 => none
  | some (left + 1) => some ⟨some left⟩

/-- The items that a sink takes, and the room after them unless the sink failed. -/
def fill {α : Type} (room : Room) : List α → List α × Option Room
  | [] => ([], some room)
  | item :: rest =>
    match room.shrink? with
    | none => ([], none)
    | some room =>
      let (taken, after) := fill room rest
      (item :: taken, after)

@[simp] theorem fill_unlimited {α : Type} (items : List α) :
    unlimited.fill items = (items, some unlimited) := by
  induction items with
  | nil => rfl
  | cons item rest ih => simp [fill, shrink?, unlimited] at ih ⊢; simp [ih]

/-- What does not fit is cut off where the room ends. -/
theorem fill_limited {α : Type} (limit : Nat) (items : List α) :
    (⟨some limit⟩ : Room).fill items =
      (items.take limit,
        if items.length ≤ limit then some ⟨some (limit - items.length)⟩ else none) := by
  induction items generalizing limit with
  | nil => simp [fill]
  | cons item rest ih =>
      cases limit with
      | zero => simp [fill, shrink?]
      | succ limit => simp [fill, shrink?, ih]

/-- A sink that does not fail has taken everything. -/
theorem taken_of_some {α : Type} {room left : Room} {items taken : List α}
    (filled : room.fill items = (taken, some left)) : taken = items := by
  induction items generalizing room taken with
  | nil =>
      cases filled
      rfl
  | cons item rest ih =>
      cases shrunk : room.shrink? with
      | none => simp [fill, shrunk] at filled
      | some smaller =>
          simp only [fill, shrunk, Prod.mk.injEq] at filled
          obtain ⟨rfl, after⟩ := filled
          exact congrArg (item :: ·) (ih (Prod.ext rfl after))

/-- What follows is put into the room that is left, unless the sink has failed. -/
theorem fill_append {α : Type} (room : Room) (items more : List α) :
    room.fill (items ++ more) =
      match room.fill items with
      | (taken, none) => (taken, none)
      | (taken, some left) => (taken ++ (left.fill more).1, (left.fill more).2) := by
  induction items generalizing room with
  | nil => rfl
  | cons item rest ih =>
      cases shrunk : room.shrink? with
      | none => simp only [List.cons_append, fill, shrunk]
      | some smaller =>
          simp only [List.cons_append, fill, shrunk, ih]
          cases smaller.fill rest with
          | mk taken left? => cases left? <;> rfl

end Room

end ThreadedCode
