import ThreadedCode.Body.Lowering
import ThreadedCode.Proofs.Lexing

/-!
# Notes stay inside their comments

The note of a handler call is made of names of the program and of string literals. Names are guarded
and literals escape what would end a comment, so no note ends the comment that it stands in.
-/

namespace ThreadedCode

namespace Lexer

theorem staysOpen_append {chars more : List Char} (plain : '*' ∉ chars) (stays : StaysOpen more) :
    StaysOpen (chars ++ more) := by
  induction chars with
  | nil => exact stays
  | cons char rest ih =>
      rw [List.mem_cons, not_or] at plain
      exact .cons (fun star => absurd star.symm plain.1) (ih plain.2)

end Lexer

namespace Comment

theorem head?_guardChars (chars : List Char) : (guardChars chars).head? = chars.head? := by
  fun_cases guardChars chars with
  | case1 rest => rfl
  | case2 char rest plain => rfl
  | case3 => rfl

theorem staysOpen_guardChars (chars : List Char) : Lexer.StaysOpen (guardChars chars) := by
  fun_induction guardChars chars with
  | case1 rest ih => exact .cons nofun (.cons nofun (.cons nofun ih))
  | case2 char rest plain ih =>
      apply Lexer.StaysOpen.cons
      · intro star slash
        rw [head?_guardChars] at slash
        obtain ⟨tail, rfl⟩ := List.head?_eq_some_iff.mp slash
        exact plain tail star rfl
      · exact ih
  | case3 => exact .nil

theorem staysOpen_guardText (text : String) : Lexer.StaysOpen (guardText text).toList := by
  rw [guardText, String.toList_ofList]
  exact staysOpen_guardChars text.toList

end Comment

namespace Literal

theorem toNat_octalDigit (number : Nat) : (octalDigit number).toNat = 48 + number % 8 := by
  unfold octalDigit
  have below : number % 8 < 8 := Nat.mod_lt _ (by decide)
  generalize number % 8 = digit at below
  revert digit
  decide

theorem octalDigit_ne_star (number : Nat) : octalDigit number ≠ '*' := by
  intro star
  have code : '*'.toNat = 48 + number % 8 := star ▸ toNat_octalDigit number
  exact absurd code (Nat.ne_of_lt (Nat.lt_add_right _ (by decide)))

theorem star_not_mem_octalEscape (byte : UInt8) : '*' ∉ octalEscape byte := by
  simp [octalEscape, (octalDigit_ne_star _).symm]

/-- Only a star is spelled with a star. -/
theorem star_not_mem_spell {char : Char} (plain : char ≠ '*') (afterStar : Bool) :
    '*' ∉ spell afterStar char := by
  unfold spell
  split
  case h_7 =>
    split
    · exact star_not_mem_octalEscape _
    · decide
  case h_8 =>
    split
    · simpa using plain.symm
    · simp [star_not_mem_octalEscape]
  all_goals decide

/-- After a star nothing is spelled with a slash in front. -/
theorem spell_afterStar (char : Char) :
    ∃ first rest, spell true char = first :: rest ∧ first ≠ '/' := by
  unfold spell
  split
  case h_7 => exact ⟨_, _, rfl, by decide⟩
  case h_8 plain =>
    split
    · exact ⟨char, [], rfl, plain⟩
    · cases bytes : String.utf8EncodeChar char with
      | nil =>
          have size := String.length_utf8EncodeChar char
          rw [bytes] at size
          exact absurd size.symm (Nat.ne_of_gt char.utf8Size_pos)
      | cons byte more => exact ⟨_, _, rfl, by decide⟩
  all_goals exact ⟨_, _, rfl, by decide⟩

/-- The spelling does not end a comment, not even one that a star stands in front of. -/
theorem staysOpen_spellAll (afterStar : Bool) (chars : List Char) :
    Lexer.StaysOpen (spellAll afterStar chars ++ ['"']) ∧
      (afterStar = true → (spellAll afterStar chars ++ ['"']).head? ≠ some '/') := by
  induction chars generalizing afterStar with
  | nil => exact ⟨.cons nofun .nil, nofun⟩
  | cons char rest ih =>
      rw [spellAll, List.append_assoc]
      constructor
      · by_cases star : char = '*'
        · subst star
          have spelled : spell afterStar '*' = ['*'] := by cases afterStar <;> decide
          rw [spelled]
          exact .cons (fun _ => (ih true).2 rfl) (ih true).1
        · exact Lexer.staysOpen_append (star_not_mem_spell star afterStar) (ih _).1
      · rintro rfl
        obtain ⟨first, others, spelled, plain⟩ := spell_afterStar char
        rw [spelled, List.cons_append, List.head?_cons]
        intro slash
        exact plain (Option.some.inj slash)

theorem staysOpen_quote (text : String) : Lexer.StaysOpen (quote text).toList := by
  rw [quote, String.toList_ofList]
  exact .cons nofun (staysOpen_spellAll false text.toList).1

end Literal

theorem AssignOp.star_not_mem_name (op : AssignOp) : '*' ∉ op.name.toList := by
  cases op <;> decide

/-- The note of an instruction stays inside its comment. -/
theorem Lowering.staysOpen_note {program : Program} {opcode : Opcode} {operands : List Word}
    {text : String} (noted : note program opcode operands = some text) :
    Lexer.StaysOpen text.toList := by
  unfold note at noted
  cases caption : opcode.caption with
  | none =>
      rw [caption] at noted
      cases noted
  | builtin | variableName | function =>
      rw [caption] at noted
      obtain ⟨name, -, rfl⟩ := Option.map_eq_some_iff.mp noted
      exact Comment.staysOpen_guardText name
  | assignment =>
      rw [caption] at noted
      obtain ⟨op, -, noted⟩ := Option.bind_eq_some_iff.mp noted
      obtain ⟨target, -, noted⟩ := Option.bind_eq_some_iff.mp noted
      cases noted
      rw [String.append_assoc, String.toList_append, String.toList_append]
      have blank : Lexer.StaysOpen (" ".toList ++ (Comment.guardText target).toList) :=
        .cons nofun (Comment.staysOpen_guardText target)
      exact Lexer.staysOpen_append (AssignOp.star_not_mem_name op) blank
  | stringLiteral =>
      rw [caption] at noted
      obtain ⟨content, -, rfl⟩ := Option.map_eq_some_iff.mp noted
      exact Literal.staysOpen_quote content

end ThreadedCode
