import ThreadedCode.Word

/-!
# Assignment operators

The operators that an assignment to a variable can apply. The encoding of an operator is its
position in the list.
-/

namespace ThreadedCode

/-- A compound assignment, increment or decrement. The suffixes tell apart what is left on the
stack afterwards. -/
inductive AssignOp where
  | write | writeR | writeD | plus | plusR | plusD | minus | minusR | minusD
  | mult | multR | multD | div | divR | divD | mod | modR | modD
  | pp | ppR | mm | mmR | ppp | pppR | mmp | mmpR
  deriving DecidableEq, Repr

namespace AssignOp

/-- Every operator, at the position of its encoding. -/
def all : Array AssignOp :=
  #[.write, .writeR, .writeD, .plus, .plusR, .plusD, .minus, .minusR, .minusD,
    .mult, .multR, .multD, .div, .divR, .divD, .mod, .modR, .modD,
    .pp, .ppR, .mm, .mmR, .ppp, .pppR, .mmp, .mmpR]

/-- The operator an operand word stands for, if it stands for one. -/
def ofWord? (word : Word) : Option AssignOp := word.index?.bind fun index => all[index]?

/-- The name of the operator in the generated code. -/
def name : AssignOp → String
  | .write => "WRITE"
  | .writeR => "WRITER"
  | .writeD => "WRITED"
  | .plus => "PLUS"
  | .plusR => "PLUSR"
  | .plusD => "PLUSD"
  | .minus => "MINUS"
  | .minusR => "MINUSR"
  | .minusD => "MINUSD"
  | .mult => "MULT"
  | .multR => "MULTR"
  | .multD => "MULTD"
  | .div => "DIV"
  | .divR => "DIVR"
  | .divD => "DIVD"
  | .mod => "MOD"
  | .modR => "MODR"
  | .modD => "MODD"
  | .pp => "PP"
  | .ppR => "PPR"
  | .mm => "MM"
  | .mmR => "MMR"
  | .ppp => "PPP"
  | .pppR => "PPPR"
  | .mmp => "MMP"
  | .mmpR => "MMPR"

end AssignOp

end ThreadedCode
