import ThreadedCode.Body.Lowering

/-!
# Block bodies

The bodies of all blocks, in the order of the instruction stream. A body is opened at every block
of the arena and closed right before the next one or at the end of the stream. A body that control
can leave at its end is closed by going on to the block that follows.
-/

namespace ThreadedCode

/-- A piece of the generated bodies. -/
inductive Item where
  /-- A notice, which leaves no text. -/
  | notice (content : Notice)
  /-- An empty line, and the name of the function that starts here. -/
  | label (name : Option String)
  /-- The start of a body. -/
  | header (block : Nat)
  /-- A statement. -/
  | line (statement : Statement)
  /-- The end of a body. -/
  | footer
  deriving DecidableEq, Repr

/-- The body that is being written. -/
structure OpenBody where
  block : Nat
  /-- Has control left the body for good? -/
  left : Bool
  deriving DecidableEq, Repr

namespace Bodies

/-- The items in front of an instruction: a label where a function starts, and the start of a body
where a block does. -/
def entering (program : Program) (arena : Arena) (offset : Nat) (opcode : Opcode) : List Item :=
  (if opcode = .funStart then [.label (program.functionAt offset)] else [])
    ++ match arena.find? offset with
      | some block => [.notice (.opening offset block.instructions block.first), .header offset]
      | none => []

/-- The body that an instruction belongs to. -/
def entered (arena : Arena) (offset : Nat) (current : Option OpenBody) : Option OpenBody :=
  if arena.contains offset then some ⟨offset, false⟩ else current

/-- Writes an instruction into the body it belongs to. -/
def writing (settings : Settings) (program : Program) (arena : Arena) (instruction : Instruction) :
    Option OpenBody → Trace Item Corruption (Option OpenBody)
  | none => do
    Trace.emit (.notice (.unreachable instruction.opcode instruction.offset))
    return none
  | some body => do
    let statement ←
      (Lowering.statement settings program arena body.block instruction).mapEmitted Item.notice
    Trace.emit (.line statement)
    return some { body with left := body.left || statement.leaves }

/-- The items at the end of a body whose last opcode is given. -/
def closing (last : Opcode) (next : Nat) (atEnd : Bool) (body : OpenBody) : List Item :=
  (if body.left then []
    else if last = .exit then [.line .halt]
    else if atEnd then [.notice .fallsOffEnd, .line .halt]
    else [.line (.goto next)])
  ++ [.footer]

/-- Closes the body after an instruction if the next block or the end of the stream follows. -/
def leaving (program : Program) (arena : Arena) (instruction : Instruction) :
    Option OpenBody → Trace Item Corruption (Option OpenBody)
  | none => return none
  | some body =>
    let atEnd := program.code.size ≤ instruction.next
    if atEnd || arena.contains instruction.next then do
      Trace.emitAll (closing instruction.opcode instruction.next atEnd body)
      return none
    else return some body

/-- Writes the bodies of the given instructions, and gives the number of bodies. -/
def walk (settings : Settings) (program : Program) (arena : Arena) (ending : Ending)
    (current : Option OpenBody) (bodies : Nat) :
    List Instruction → Trace Item Corruption Nat
  | [] =>
    match ending with
    | .complete => do
      Trace.emit (.notice (.bodiesWritten bodies))
      return bodies
    | .badOpcode offset value => Trace.fail (.badOpcode offset value)
    | .unresolved offset opcode cause => do
      Trace.emitAll (entering program arena offset opcode)
      Trace.fail cause
  | instruction :: rest => do
    Trace.emitAll (entering program arena instruction.offset instruction.opcode)
    let current := entered arena instruction.offset current
    let current ← writing settings program arena instruction current
    let current ← leaving program arena instruction current
    let opened := if arena.contains instruction.offset then 1 else 0
    walk settings program arena ending current (bodies + opened) rest

/-- The bodies of a program, for the blocks of an arena. -/
def items (settings : Settings) (program : Program) (arena : Arena) :
    Trace Item Corruption Nat :=
  let listing := Listing.ofCode program.code
  walk settings program arena listing.ending none 0 listing.instructions

end Bodies

end ThreadedCode
