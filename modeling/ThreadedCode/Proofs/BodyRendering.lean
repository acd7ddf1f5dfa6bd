import ThreadedCode.Proofs.BlockStatements

/-!
# The bodies, instruction by instruction

The walk over the instructions remembers which body is open and whether control has left it. Here
the bodies are described without a walk. An instruction belongs to the last block that starts no
later, and its text follows from that block and the instructions since. Both descriptions give the
same text, for any arena and on any page.
-/

namespace ThreadedCode

/-- Of two instructions the later one starts after the earlier one has ended. -/
theorem Decodes.next_le_of_lt {code : Array Word} {cursor : Nat} {instructions : List Instruction}
    {ending : Ending} (run : Decodes code cursor instructions ending)
    {earlier later : Instruction} (first : earlier ∈ instructions) (second : later ∈ instructions)
    (before : earlier.offset < later.offset) : earlier.next ≤ later.offset := by
  induction run with
  | complete _ | badOpcode _ _ | unresolved _ _ _ => cases first
  | @instruction instruction rest ending stands tail ih =>
      rcases List.mem_cons.mp first with rfl | firstListed
      · rcases List.mem_cons.mp second with rfl | secondListed
        · exact absurd before (Nat.lt_irrefl _)
        · exact tail.cursor_le secondListed
      · rcases List.mem_cons.mp second with rfl | secondListed
        · have after := tail.cursor_le firstListed
          have ends := stands.offset_lt_next
          omega
        · exact ih firstListed secondListed

namespace Program

section Ownership

variable (program : Program) (arena : Arena)

/-- The blocks of the arena at which an instruction starts, in order. -/
def starts : List Nat := (program.instructions.map Instruction.offset).filter arena.contains

/-- The last start before the cursor. -/
def lastStart? (cursor : Nat) : Option Nat :=
  ((program.starts arena).filter (· < cursor)).max?

/-- The block that the instruction at an offset belongs to: the greatest start not after it. -/
def owner? (offset : Nat) : Option Nat :=
  ((program.starts arena).filter (· ≤ offset)).max?

/-- Is there an instruction between the start of the block and the cursor after which control
always leaves? -/
def leavesBefore (block cursor : Nat) : Bool :=
  program.instructions.any fun instruction =>
    block ≤ instruction.offset && instruction.offset < cursor && instruction.opcode.leaves

/-- Is there an instruction from the start of the block up to the offset after which control always
leaves? -/
def leavesUpTo (block offset : Nat) : Bool :=
  program.instructions.any fun instruction =>
    block ≤ instruction.offset && instruction.offset ≤ offset && instruction.opcode.leaves

end Ownership

section Owners

variable {program : Program} {arena : Arena} {instruction : Instruction}

theorem mem_starts {block : Nat} :
    block ∈ program.starts arena ↔
      block ∈ arena.offsets ∧ ∃ instruction ∈ program.instructions, instruction.offset = block := by
  rw [starts, List.mem_filter, Arena.contains_iff, List.mem_map]
  exact And.comm

theorem mem_starts_of_mem (member : instruction ∈ program.instructions) :
    instruction.offset ∈ program.starts arena ↔ arena.contains instruction.offset = true := by
  rw [starts, List.mem_filter]
  exact and_iff_right (List.mem_map_of_mem member)

theorem not_mem_starts (member : instruction ∈ program.instructions)
    (plain : arena.contains instruction.offset = false) :
    instruction.offset ∉ program.starts arena := by
  rw [mem_starts_of_mem member, plain]
  exact Bool.false_ne_true

theorem starts_ascending (program : Program) (arena : Arena) :
    (program.starts arena).Pairwise (· < ·) :=
  (Listing.decodes_ofCode program.code).offsets_ascending.filter _

/-- An instruction at the start of a block belongs to it. -/
theorem owner?_of_start (member : instruction ∈ program.instructions)
    (starts : arena.contains instruction.offset = true) :
    program.owner? arena instruction.offset = some instruction.offset := by
  rw [owner?, List.max?_eq_some_iff]
  constructor
  · rw [List.mem_filter, mem_starts_of_mem member]
    exact ⟨starts, decide_eq_true (Nat.le_refl _)⟩
  · intro other listed
    exact of_decide_eq_true (List.mem_filter.mp listed).2

/-- Any other instruction belongs to the block that the one before it belongs to. -/
theorem owner?_of_plain (member : instruction ∈ program.instructions)
    (plain : arena.contains instruction.offset = false) :
    program.owner? arena instruction.offset = program.lastStart? arena instruction.offset := by
  refine congrArg List.max? (List.filter_congr fun start listed => ?_)
  have apart : start ≠ instruction.offset := by
    rintro rfl
    exact not_mem_starts member plain listed
  exact decide_eq_decide.mpr ⟨fun notAfter => Nat.lt_of_le_of_ne notAfter apart, Nat.le_of_lt⟩

/-- An instruction starts before the end of another one exactly if it starts no later. -/
theorem offset_lt_next_iff {other : Instruction} (member : instruction ∈ program.instructions)
    (otherMember : other ∈ program.instructions) :
    other.offset < instruction.next ↔ other.offset ≤ instruction.offset := by
  have run := Listing.decodes_ofCode program.code
  constructor
  · intro before
    refine Nat.not_lt.mp fun after => ?_
    have apart := run.next_le_of_lt member otherMember after
    omega
  · intro notAfter
    exact Nat.lt_of_le_of_lt notAfter (run.stands member).offset_lt_next

theorem lastStart?_next (member : instruction ∈ program.instructions) (arena : Arena) :
    program.lastStart? arena instruction.next = program.owner? arena instruction.offset := by
  refine congrArg List.max? (List.filter_congr fun start listed => ?_)
  obtain ⟨-, other, otherMember, rfl⟩ := mem_starts.mp listed
  exact decide_eq_decide.mpr (offset_lt_next_iff member otherMember)

theorem leavesBefore_next (member : instruction ∈ program.instructions) (block : Nat) :
    program.leavesBefore block instruction.next =
      program.leavesUpTo block instruction.offset := by
  rw [Bool.eq_iff_iff, leavesBefore, leavesUpTo, List.any_eq_true, List.any_eq_true]
  refine exists_congr fun other => and_congr_right fun otherMember => ?_
  rw [decide_eq_decide.mpr (offset_lt_next_iff member otherMember)]

/-- Nothing of a block comes before its start. -/
theorem leavesBefore_start (program : Program) (block : Nat) :
    program.leavesBefore block block = false := by
  rw [leavesBefore, List.any_eq_false]
  intro instruction member found
  simp only [Bool.and_eq_true, decide_eq_true_eq] at found
  omega

/-- Up to an instruction of the block, control has left before it or leaves there. -/
theorem leavesUpTo_eq (member : instruction ∈ program.instructions) {block : Nat}
    (within : block ≤ instruction.offset) :
    program.leavesUpTo block instruction.offset =
      (program.leavesBefore block instruction.offset || instruction.opcode.leaves) := by
  have run := Listing.decodes_ofCode program.code
  rw [Bool.eq_iff_iff, Bool.or_eq_true, leavesUpTo, leavesBefore, List.any_eq_true,
    List.any_eq_true]
  simp only [Bool.and_eq_true, decide_eq_true_eq]
  constructor
  · rintro ⟨other, listed, ⟨since, notAfter⟩, leaves⟩
    rcases Nat.lt_or_eq_of_le notAfter with before | same
    · exact Or.inl ⟨other, listed, ⟨since, before⟩, leaves⟩
    · rw [(run.stands listed).unique (run.stands member) same] at leaves
      exact Or.inr leaves
  · rintro (⟨other, listed, ⟨since, before⟩, leaves⟩ | leaves)
    · exact ⟨other, listed, ⟨since, Nat.le_of_lt before⟩, leaves⟩
    · exact ⟨instruction, member, ⟨within, Nat.le_refl _⟩, leaves⟩

theorem owner?_le {block offset : Nat} (owned : program.owner? arena offset = some block) :
    block ≤ offset := by
  rw [owner?, List.max?_eq_some_iff] at owned
  exact of_decide_eq_true (List.mem_filter.mp owned.1).2

end Owners

section Rendering

variable (program : Program) (settings : Settings) (arena : Arena) (instruction : Instruction)

/-- The label in front of an instruction that starts a function. Inside of a body it is indented. -/
def labelFragment : String :=
  if instruction.opcode = .funStart then
    Page.indentText
      (if instruction.offset ∈ program.starts arena then 0
        else (program.owner? arena instruction.offset).isSome.toNat)
      (Item.labelText (program.functionAt instruction.offset))
  else ""

/-- The header in front of an instruction that starts a block. -/
def headerFragment : String :=
  if instruction.offset ∈ program.starts arena then
    settings.signature instruction.offset ++ " \x7b\n"
  else ""

/-- The line of an instruction of a block. -/
def lineFragment (block : Nat) : String :=
  match (Lowering.statement settings program arena block instruction).outcome with
  | .ok statement => statement.line settings
  | .error _ => ""

/-- The end of a block behind its last instruction, with a return in front of it unless control
always leaves before. -/
def closingFragment (block : Nat) : String :=
  if program.code.size ≤ instruction.next ∨ instruction.next ∈ program.starts arena then
    (if program.leavesUpTo block instruction.offset then ""
      else (Bodies.closingStatement program.code instruction).line settings) ++ "\x7d\n"
  else ""

/-- The text of an instruction. Before the first block it is a label at most. -/
def fragment : String :=
  program.labelFragment arena instruction ++ program.headerFragment settings arena instruction
    ++ match program.owner? arena instruction.offset with
      | none => ""
      | some block =>
        program.lineFragment settings arena instruction block
          ++ program.closingFragment settings arena instruction block

/-- The text of all instructions. -/
def rendering : String :=
  String.join (program.instructions.map (program.fragment settings arena))

end Rendering

end Program

namespace Bodies

section Texts

variable {settings : Settings} {program : Program} {arena : Arena}

theorem text_append {inside after : Bool} {items : List Item}
    (nested : nesting inside items = some after) (more : List Item) :
    text settings inside (items ++ more) =
      text settings inside items ++ text settings after more := by
  induction items generalizing inside with
  | nil =>
      cases nested
      exact String.empty_append.symm
  | cons item rest ih =>
      obtain ⟨between, first, others⟩ := nesting_cons nested
      rw [List.cons_append, text, text, first, Option.getD_some, ih others, String.append_assoc]

theorem text_notices (inside : Bool) (notices : List Notice) :
    text settings inside (notices.map Item.notice) = "" := by
  induction notices with
  | nil => rfl
  | cons notice rest ih => exact String.empty_append.trans ih

theorem text_labels (inside : Bool) (offset : Nat) (opcode : Opcode) :
    text settings inside (labels program offset opcode) =
      if opcode = .funStart then
        Page.indentText inside.toNat (Item.labelText (program.functionAt offset))
      else "" := by
  unfold labels
  split
  · exact String.append_empty
  · rfl

theorem text_closing (code : Array Word) (last : Instruction) (body : OpenBody) :
    text settings true (closing last.opcode last.next (code.size ≤ last.next) body) =
      (if body.left then "" else (closingStatement code last).line settings) ++ "\x7d\n" := by
  unfold closing closingStatement Machine.fallOff
  cases body.left with
  | true => rfl
  | false =>
      by_cases ends : last.opcode = .exit
      · simp [ends, text, Item.text]
      · by_cases past : code.size ≤ last.next <;> simp [ends, past, text, Item.text]

theorem text_written (instruction : Instruction) (body : OpenBody) (statement : Statement) :
    text settings true (written settings program arena instruction body statement) =
      statement.line settings ++
        if closes program arena instruction then
          (if body.left || statement.leaves then ""
            else (closingStatement program.code instruction).line settings) ++ "\x7d\n"
        else "" := by
  rw [written, text_append (nesting_notices true _), text_notices, String.empty_append, text]
  cases closes program arena instruction with
  | true => exact congrArg (statement.line settings ++ ·) (text_closing _ _ _)
  | false => rfl

end Texts

section Renders

variable {settings : Settings} {program : Program} {arena : Arena} {instruction : Instruction}
  {current : Option OpenBody}

/-- The walk remembers the last start and whether control has left since. At a new start and at the
end of the stream there is nothing to remember. -/
def Tracks (program : Program) (arena : Arena) (cursor : Nat) (current : Option OpenBody) : Prop :=
  arena.contains cursor = false → cursor < program.code.size →
    current = (program.lastStart? arena cursor).map fun block =>
      ⟨block, program.leavesBefore block cursor⟩

/-- Nothing starts before the first instruction. -/
theorem tracks_first (program : Program) (arena : Arena) :
    Tracks program arena Instruction.first none := by
  have nowhere : program.lastStart? arena Instruction.first = none := by
    rw [Program.lastStart?, List.max?_eq_none_iff, List.filter_eq_nil_iff]
    intro start listed before
    obtain ⟨-, instruction, member, rfl⟩ := Program.mem_starts.mp listed
    have after := (Listing.decodes_ofCode program.code).cursor_le member
    exact absurd (of_decide_eq_true before) (Nat.not_lt.mpr after)
  intro _ _
  rw [nowhere, Option.map_none]

/-- The body that an instruction is written into is that of the block it belongs to. -/
theorem Tracks.entered (tracks : Tracks program arena instruction.offset current)
    (member : instruction ∈ program.instructions) (stands : instruction.StandsIn program.code) :
    entered arena instruction.offset current =
      (program.owner? arena instruction.offset).map fun block =>
        ⟨block, program.leavesBefore block instruction.offset⟩ := by
  cases starts : arena.contains instruction.offset with
  | true =>
      rw [entered_start starts, Program.owner?_of_start member starts, Option.map_some,
        program.leavesBefore_start]
  | false =>
      rw [entered_plain starts, Program.owner?_of_plain member starts]
      exact tracks starts stands.offset_lt_size

/-- In front of an instruction a body is open exactly if the instruction continues it. -/
theorem Tracks.isSome (tracks : Tracks program arena instruction.offset current)
    (ready : Ready program arena instruction.offset current)
    (member : instruction ∈ program.instructions) (stands : instruction.StandsIn program.code) :
    current.isSome.toNat =
      if instruction.offset ∈ program.starts arena then 0
      else (program.owner? arena instruction.offset).isSome.toNat := by
  cases starts : arena.contains instruction.offset with
  | true =>
      rw [if_pos ((Program.mem_starts_of_mem member).mpr starts), ready.none_of_start starts]
      rfl
  | false =>
      rw [if_neg (Program.not_mem_starts member starts), Program.owner?_of_plain member starts,
        tracks starts stands.offset_lt_size, Option.isSome_map]

/-- What stands in front of an instruction is its label and its header. -/
theorem text_entering (settings : Settings)
    (ready : Ready program arena instruction.offset current)
    (tracks : Tracks program arena instruction.offset current)
    (member : instruction ∈ program.instructions) (stands : instruction.StandsIn program.code) :
    text settings current.isSome (entering program arena instruction.offset instruction.opcode) =
      program.labelFragment arena instruction
        ++ program.headerFragment settings arena instruction := by
  rw [Program.labelFragment, ← tracks.isSome ready member stands, Program.headerFragment]
  cases starts : arena.contains instruction.offset with
  | false =>
      rw [entering_plain starts, text_labels, if_neg (Program.not_mem_starts member starts)]
      exact String.append_empty.symm
  | true =>
      obtain ⟨notice, same⟩ := entering_start program instruction.opcode starts
      have header : text settings current.isSome [.notice notice, .header instruction.offset] =
          settings.signature instruction.offset ++ " \x7b\n" := by
        simp [text, Item.text]
      rw [same, text_append (nesting_labels _), text_labels, header,
        if_pos ((Program.mem_starts_of_mem member).mpr starts)]

/-- A body is closed where another block starts or the stream ends. -/
theorem closes_iff (arena : Arena) {rest : List Instruction} {ending : Ending}
    (tail : Decodes program.code instruction.next rest ending) (complete : ending = .complete)
    (within : ∀ later ∈ rest, later ∈ program.instructions) :
    closes program arena instruction = true ↔
      program.code.size ≤ instruction.next ∨ instruction.next ∈ program.starts arena := by
  rw [closes, Bool.or_eq_true, decide_eq_true_eq]
  refine or_congr_right' fun inside => ?_
  generalize same : instruction.next = cursor at tail inside
  cases tail with
  | complete past => exact absurd past inside
  | badOpcode _ _ | unresolved _ _ _ => cases complete
  | @instruction next others _ stands tail =>
      exact (Program.mem_starts_of_mem (within next List.mem_cons_self)).symm

/-- What a step leaves for the next one to remember. -/
theorem Tracks.next {block : Nat} {statement : Statement}
    (member : instruction ∈ program.instructions)
    (owned : program.owner? arena instruction.offset = some block)
    (leaves : statement.leaves = instruction.opcode.leaves) :
    Tracks program arena instruction.next
      (if closes program arena instruction then none
        else some ⟨block,
          program.leavesBefore block instruction.offset || statement.leaves⟩) := by
  intro plain inside
  have stays : closes program arena instruction = false := by
    simp [closes, plain, Nat.not_le.mpr inside]
  rw [Program.lastStart?_next member, owned, Option.map_some, Program.leavesBefore_next member,
    Program.leavesUpTo_eq member (Program.owner?_le owned), leaves, stays]
  rfl

/-- A step writes the text of its instruction, which has a statement if it belongs to a block. -/
theorem step_renders {rest : List Instruction} {ending : Ending}
    (stands : instruction.StandsIn program.code)
    (tail : Decodes program.code instruction.next rest ending) (complete : ending = .complete)
    (within : ∀ later ∈ instruction :: rest, later ∈ program.instructions)
    (ready : Ready program arena instruction.offset current)
    (tracks : Tracks program arena instruction.offset current) {after : Option OpenBody}
    (stepped : (step settings program arena instruction current).outcome = .ok after) :
    text settings current.isSome (step settings program arena instruction current).emitted =
        program.fragment settings arena instruction ∧
      Tracks program arena instruction.next after ∧
      ∀ block, program.owner? arena instruction.offset = some block →
        ∃ statement, (Lowering.statement settings program arena block instruction).outcome =
          .ok statement := by
  have member := within instruction List.mem_cons_self
  have entered := tracks.entered member stands
  have front := text_entering settings ready tracks member stands
  have nested := nesting_entering ready instruction.opcode
  rw [Program.fragment]
  cases owned : program.owner? arena instruction.offset with
  | none =>
      rw [owned, Option.map_none] at entered
      rw [entered] at nested
      rw [step_outside entered] at stepped ⊢
      cases stepped
      refine ⟨?_, ?_, nofun⟩
      · rw [text_append nested, front]
        rfl
      · intro plain inside
        rw [Program.lastStart?_next member, owned, Option.map_none]
  | some block =>
      rw [owned, Option.map_some] at entered
      rw [entered] at nested
      cases lowered : (Lowering.statement settings program arena block instruction).outcome with
      | error cause =>
          rw [step_fails entered lowered] at stepped
          cases stepped
      | ok statement =>
          have leaves := Lowering.statement_leaves lowered
          rw [step_writes entered lowered] at stepped ⊢
          cases stepped
          refine ⟨?_, Tracks.next member owned leaves, ?_⟩
          · have upTo := Program.leavesUpTo_eq member (Program.owner?_le owned)
            have ends := closes_iff arena tail complete fun later listed =>
              within later (List.mem_cons_of_mem instruction listed)
            rw [text_append nested, front]
            refine congrArg (_ ++ ·) ((text_written _ _ _).trans ?_)
            simp only [Program.lineFragment, lowered, Program.closingFragment, upTo, leaves, ends]
          · intro other same
            cases same
            exact ⟨statement, lowered⟩

/-- A walk to the end writes the text of its instructions. -/
theorem walk_renders {cursor : Nat} {instructions : List Instruction} {ending : Ending}
    (run : Decodes program.code cursor instructions ending)
    (within : ∀ instruction ∈ instructions, instruction ∈ program.instructions)
    (ready : Ready program arena cursor current) (tracks : Tracks program arena cursor current)
    (complete : ending = .complete) {bodies count : Nat}
    (finished : (walk settings program arena ending current bodies instructions).outcome =
      .ok count) :
    text settings current.isSome
        (walk settings program arena ending current bodies instructions).emitted =
        String.join (instructions.map (program.fragment settings arena)) ∧
      ∀ instruction ∈ instructions, ∀ block,
        program.owner? arena instruction.offset = some block →
          ∃ statement, (Lowering.statement settings program arena block instruction).outcome =
            .ok statement := by
  induction run generalizing current bodies with
  | complete past => exact ⟨rfl, nofun⟩
  | badOpcode _ _ | unresolved _ _ _ => cases complete
  | @instruction instruction rest ending stands tail ih =>
      cases stepped : (step settings program arena instruction current).outcome with
      | error cause =>
          rw [walk_cons_error stepped] at finished
          cases finished
      | ok after =>
          obtain ⟨inside, nested, continues⟩ := step_nesting settings ready
          obtain ⟨rfl, readyAfter⟩ := continues after stepped
          obtain ⟨written, tracksAfter, lowered⟩ :=
            step_renders stands tail complete within ready tracks stepped
          rw [walk_cons_ok stepped] at finished ⊢
          obtain ⟨others, loweredLater⟩ :=
            ih (fun later listed => within later (List.mem_cons_of_mem instruction listed))
              readyAfter tracksAfter complete finished
          constructor
          · rw [text_append nested, written, others, List.map_cons, String.join_cons]
          · intro later listed
            rcases List.mem_cons.mp listed with rfl | listed
            · exact lowered
            · exact loweredLater later listed

/-- A walk fails if the stream does not end after an instruction. -/
theorem walk_complete {ending : Ending} {instructions : List Instruction} {bodies count : Nat}
    (finished : (walk settings program arena ending current bodies instructions).outcome =
      .ok count) : ending = .complete := by
  induction instructions generalizing current bodies with
  | nil =>
      cases ending with
      | complete => rfl
      | badOpcode _ _ | unresolved _ _ _ => cases finished
  | cons instruction rest ih =>
      cases stepped : (step settings program arena instruction current).outcome with
      | error cause =>
          rw [walk_cons_error stepped] at finished
          cases finished
      | ok after =>
          rw [walk_cons_ok stepped] at finished
          exact ih finished

end Renders

/-- While nested items are printed, at most one body is open. -/
theorem printAll_depth_le (settings : Settings) {depth : Nat} {page : Page} {inside final : Bool}
    {items front : List Item} (place : Item.At depth page inside)
    (nested : nesting inside items = some final) (begins : front <+: items) :
    ∃ between, (Item.printAll settings page front).outcome = .ok between ∧
      between.depth ≤ depth + 1 := by
  obtain ⟨rest, rfl⟩ := begins
  rw [nesting_append] at nested
  obtain ⟨after, first, -⟩ := Option.bind_eq_some_iff.mp nested
  obtain ⟨⟨between, printed, stands⟩, -⟩ := printAll_nested settings place first
  refine ⟨between, printed, ?_⟩
  rw [stands.1]
  exact Nat.add_le_add_left (Bool.toNat_le after) depth

end Bodies

/-- If the bodies of a program can be written for an arena, there is one for each start, never more
than one of them is open, all are closed in the end, and what is written is the text of all
instructions. The arena need not be that of the program. -/
theorem generateOn_writes_rendering {page behind : Page} {settings : Settings} {program : Program}
    {arena : Arena} {count : Nat}
    (finished : (Bodies.generateOn page settings program arena).outcome = .ok (count, behind)) :
    ((program.starts arena).Pairwise (· < ·) ∧ count = (program.starts arena).length) ∧
      behind.depth = page.depth ∧
      (∀ front, front <+: (Bodies.items settings program arena).emitted →
        ∃ between, (Item.printAll settings page front).outcome = .ok between ∧
          between.depth ≤ page.depth + 1) ∧
      (∀ instruction ∈ program.instructions, ∀ block,
        program.owner? arena instruction.offset = some block →
          ∃ statement, (Lowering.statement settings program arena block instruction).outcome =
            .ok statement) ∧
      Event.textOf (Bodies.generateOn page settings program arena).emitted =
        (page.fresh.write (program.rendering settings arena)).text := by
  obtain ⟨last, generated, written⟩ := Bodies.generateOn_eq settings program arena page
  have walked : (Bodies.items settings program arena).outcome = .ok count ∧ last = behind := by
    rw [finished] at generated
    cases outcome : (Bodies.items settings program arena).outcome with
    | error cause =>
        rw [outcome] at generated
        cases generated
    | ok other =>
        rw [outcome] at generated
        cases generated
        exact ⟨rfl, rfl⟩
  obtain ⟨walked, rfl⟩ := walked
  obtain ⟨depth, text⟩ := written count walked
  obtain ⟨inside, nested, -⟩ := Bodies.items_nesting settings program arena
  have run := Listing.decodes_ofCode program.code
  have counted := (Bodies.walk_opened run walked).2
  rw [Nat.zero_add] at counted
  obtain ⟨rendered, lowered⟩ := Bodies.walk_renders run (fun _ member => member)
    (Bodies.ready_none program arena _) (Bodies.tracks_first program arena)
    (Bodies.walk_complete walked) walked
  refine ⟨⟨program.starts_ascending arena, counted⟩, depth, ?_, lowered, ?_⟩
  · intro front begins
    have place : Item.At page.depth page false := ⟨rfl, nofun⟩
    exact Bodies.printAll_depth_le settings place nested begins
  · rw [text, Page.write_text]
    exact congrArg (Page.inlineText page.depth page.midLine) rendered

/-- Starts with an instruction outside of the blocks below. A function starts inside of one, after
control has left it. -/
def patchwork : Program :=
  { Program.bare #[90, 2, 20, 0, 7, 90, 3, 76, 0, 0, 0, 20] (fun _ => false) [] with
    functionAt := fun offset => if offset = 7 then some "main" else none }

/-- Blocks of no program: two of them are in order of no listing, one starts in the middle of an
instruction and one behind the end of the stream. -/
def patchworkArena : Arena :=
  ⟨[⟨11, .exit, 9⟩, ⟨4, .pop, 1⟩, ⟨3, .pop, 1⟩, ⟨100, .pop, 1⟩]⟩

example :
    (patchwork.instructions.map fun instruction =>
      patchwork.owner? patchworkArena instruction.offset) =
      [none, some 3, some 3, some 3, some 11] := by
  cbv

theorem generateOn_writes_rendering_patchwork :
    ∃ behind,
      (Bodies.generateOn ⟨"", 1, true⟩ {} patchwork patchworkArena).outcome = .ok (2, behind) ∧
      ((patchwork.starts patchworkArena).Pairwise (· < ·) ∧
        2 = (patchwork.starts patchworkArena).length) ∧
      behind.depth = 1 ∧
      (∀ front, front <+: (Bodies.items {} patchwork patchworkArena).emitted →
        ∃ between, (Item.printAll {} ⟨"", 1, true⟩ front).outcome = .ok between ∧
          between.depth ≤ 2) ∧
      (∀ instruction ∈ patchwork.instructions, ∀ block,
        patchwork.owner? patchworkArena instruction.offset = some block →
          ∃ statement, (Lowering.statement {} patchwork patchworkArena block instruction).outcome =
            .ok statement) ∧
      Event.textOf (Bodies.generateOn ⟨"", 1, true⟩ {} patchwork patchworkArena).emitted =
        (Page.write ⟨"", 1, true⟩ (patchwork.rendering {} patchworkArena)).text := by
  have written : (Bodies.items {} patchwork patchworkArena).outcome = .ok 2 := by cbv
  obtain ⟨behind, generated, -⟩ :=
    Bodies.generateOn_eq {} patchwork patchworkArena ⟨"", 1, true⟩
  have finished : (Bodies.generateOn ⟨"", 1, true⟩ {} patchwork patchworkArena).outcome =
      .ok (2, behind) := by
    rw [generated, written]
    rfl
  exact ⟨behind, finished, generateOn_writes_rendering finished⟩

end ThreadedCode
