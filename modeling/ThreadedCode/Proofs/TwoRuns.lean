import ThreadedCode.Proofs.BodyWalk

/-!
# Two programs side by side

The walk reads from a program its stream, the names of the functions that start in it, and whatever
lowering reads. If two programs have the same stream and the same such names, and lowering gives
statements that are the same once something is taken out of them, then the walks over the two
programs go the same way and emit the same items, once the same is taken out of those.
-/

namespace ThreadedCode

namespace Trace

variable {ι κ ε α β γ : Type}

theorem map_bind (f : β → γ) (trace : Trace ι ε α) (next : α → Trace ι ε β) :
    f <$> (trace >>= next) = trace >>= fun value => f <$> next value := by
  obtain ⟨items, outcome⟩ := trace
  cases outcome with
  | error cause => rfl
  | ok value =>
      cases found : next value with
      | mk more outcome => cases outcome <;> simp [found]

theorem map_map (f : α → β) (g : β → γ) (trace : Trace ι ε α) :
    g <$> f <$> trace = (fun value => g (f value)) <$> trace := by
  obtain ⟨items, outcome⟩ := trace
  cases outcome with
  | error cause => rfl
  | ok value => rw [map_ok, map_ok, map_ok]

theorem mapEmitted_bind (f : ι → κ) (trace : Trace ι ε α) (next : α → Trace ι ε β) :
    (trace >>= next).mapEmitted f =
      trace.mapEmitted f >>= fun value => (next value).mapEmitted f := by
  obtain ⟨items, outcome⟩ := trace
  cases outcome with
  | error cause => rfl
  | ok value => exact congrArg (Trace.mk · _) (List.map_append)

theorem mapEmitted_id (trace : Trace ι ε α) : trace.mapEmitted id = trace :=
  congrArg (Trace.mk · trace.outcome) (List.map_id trace.emitted)

end Trace

/-- The item with its statement changed. -/
def Item.mapStatement (f : Statement → Statement) : Item → Item
  | .line statement => .line (f statement)
  | item => item

namespace Bodies

/-- The programs are alike to the walk, up to what `f` takes out of statements. -/
structure Alike (f : Statement → Statement) (settings : Settings) (arena : Arena)
    (program other : Program) : Prop where
  code : program.code = other.code
  functionAt : ∀ offset, program.functionAt offset = other.functionAt offset
  /-- What is taken out does not matter for whether control leaves. -/
  leaves : ∀ statement, (f statement).leaves = statement.leaves
  statement : ∀ block instruction,
    f <$> Lowering.statement settings program arena block instruction =
      f <$> Lowering.statement settings other arena block instruction

/-- What is written for an instruction, up to what is taken out of it, is known from its statement
up to the same. -/
theorem writing_some {f : Statement → Statement}
    (leaves : ∀ statement, (f statement).leaves = statement.leaves) (settings : Settings)
    (program : Program) (arena : Arena) (instruction : Instruction) (body : OpenBody) :
    (writing settings program arena instruction (some body)).mapEmitted (Item.mapStatement f) =
      (f <$> Lowering.statement settings program arena body.block instruction).mapEmitted
        Item.notice >>= fun statement =>
      ⟨[.line statement], .ok (some { body with left := body.left || statement.leaves })⟩ := by
  have notices (emitted : List Notice) :
      (emitted.map Item.notice).map (Item.mapStatement f) = emitted.map Item.notice := by
    rw [List.map_map]
    rfl
  rw [writing]
  obtain ⟨emitted, outcome⟩ :=
    Lowering.statement settings program arena body.block instruction
  cases outcome with
  | error cause => exact congrArg (Trace.mk · _) (notices emitted)
  | ok statement =>
      simp only [Trace.map_ok, Trace.mapEmitted, Trace.bind_ok, Trace.emit, Trace.pure_eq,
        List.map_append, notices, leaves, List.append_nil]
      rfl

namespace Alike

variable {f : Statement → Statement} {settings : Settings} {arena : Arena}
  {program other : Program} (alike : Alike f settings arena program other)
include alike

theorem entering (offset : Nat) (opcode : Opcode) :
    Bodies.entering program arena offset opcode = Bodies.entering other arena offset opcode := by
  rw [Bodies.entering, Bodies.entering, alike.functionAt]

theorem leaving (instruction : Instruction) (current : Option OpenBody) :
    Bodies.leaving program arena instruction current =
      Bodies.leaving other arena instruction current := by
  unfold Bodies.leaving
  rw [alike.code]

theorem writing (instruction : Instruction) (current : Option OpenBody) :
    (Bodies.writing settings program arena instruction current).mapEmitted (Item.mapStatement f) =
      (Bodies.writing settings other arena instruction current).mapEmitted
        (Item.mapStatement f) := by
  cases current with
  | none => rfl
  | some body => rw [writing_some alike.leaves, writing_some alike.leaves, alike.statement]

/-- The items of one step are alike, and the walks go on in the same way. -/
theorem step (instruction : Instruction) (current : Option OpenBody) :
    (Bodies.step settings program arena instruction current).mapEmitted (Item.mapStatement f) =
      (Bodies.step settings other arena instruction current).mapEmitted (Item.mapStatement f) := by
  simp only [Bodies.step, Trace.mapEmitted_bind, alike.entering, alike.writing, alike.leaving]

/-- The items of a whole walk are alike. -/
theorem walk (ending : Ending) (current : Option OpenBody) (bodies : Nat)
    (instructions : List Instruction) :
    (Bodies.walk settings program arena ending current bodies instructions).mapEmitted
        (Item.mapStatement f) =
      (Bodies.walk settings other arena ending current bodies instructions).mapEmitted
        (Item.mapStatement f) := by
  induction instructions generalizing current bodies with
  | nil =>
      unfold Bodies.walk
      simp only [alike.entering]
  | cons instruction rest ih =>
      simp only [walk_cons, Trace.mapEmitted_bind, alike.step, ih]

theorem items :
    (Bodies.items settings program arena).mapEmitted (Item.mapStatement f) =
      (Bodies.items settings other arena).mapEmitted (Item.mapStatement f) := by
  unfold Bodies.items
  rw [alike.code]
  exact alike.walk _ none 0 _

end Alike

/-- If nothing is taken out, the items are the same. -/
theorem items_congr {settings : Settings} {arena : Arena} {program other : Program}
    (alike : Alike id settings arena program other) :
    items settings program arena = items settings other arena := by
  have whole : Item.mapStatement id = id := by
    funext item
    cases item <;> rfl
  have same := alike.items
  rwa [whole, Trace.mapEmitted_id, Trace.mapEmitted_id] at same

end Bodies

end ThreadedCode
