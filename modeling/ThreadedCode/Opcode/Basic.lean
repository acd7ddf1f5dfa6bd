import ThreadedCode.Word

/-!
# The instruction set

Every opcode has an encoding, which is its position in the list below, and a name, which is also
the suffix of the runtime handler that carries it out.
-/

namespace ThreadedCode

/-- The operations of the stack machine, in the order of their encodings. -/
inductive Opcode where
  | pushInt | pushInt64 | pushFlt | pushFlt64 | pushStr | pushNil | pushVar | pushVarRef
  | pushFld | pushFldMRef | pushLoc | vPushIdxI | vPushIdxV | nPushIdxI | sPushIdxI | lvalVar
  | lvalFld | lvalIdxI | lvalIdxV | lvalLoc | pop | popRef | dup | iAdd | iSub | iMul | iDiv
  | iMod | iLt | iGt | iLe | iGe | iEq | iNe | fAdd | fSub | fMul | fDiv | fMod | fLt | fGt | fLe
  | fGe | fEq | fNe | sAdd | sEq | sNe | aEq | aNe | iUMinus | fUMinus | logNot | bitNot | bitAnd
  | bitOr | xor | asl | asr | i2f | a2s | e2b | isType | newVec | newObject | bCall0 | bCall1
  | bCall2 | bCall3 | bCall4 | bCall5 | bCall6 | call | callMulti | callV | callVCond | funStart
  | funEnd | funMulti | ret | pushFun | coro | coCl | coEnd | yield | iFor | sFor | vFor
  | sForRef | vForRef | jump | jumpFail | jumpFailR | jumpFailN | jumpNoFail | jumpNoFailR
  | logRead | logWrite | exit
  deriving DecidableEq, Repr

namespace Opcode

/-- Every opcode, at the position of its encoding. -/
def all : Array Opcode :=
  #[
    .pushInt, .pushInt64, .pushFlt, .pushFlt64, .pushStr, .pushNil, .pushVar, .pushVarRef,
    .pushFld, .pushFldMRef, .pushLoc, .vPushIdxI, .vPushIdxV, .nPushIdxI, .sPushIdxI, .lvalVar,
    .lvalFld, .lvalIdxI, .lvalIdxV, .lvalLoc, .pop, .popRef, .dup, .iAdd, .iSub, .iMul, .iDiv,
    .iMod, .iLt, .iGt, .iLe, .iGe, .iEq, .iNe, .fAdd, .fSub, .fMul, .fDiv, .fMod, .fLt, .fGt,
    .fLe, .fGe, .fEq, .fNe, .sAdd, .sEq, .sNe, .aEq, .aNe, .iUMinus, .fUMinus, .logNot, .bitNot,
    .bitAnd, .bitOr, .xor, .asl, .asr, .i2f, .a2s, .e2b, .isType, .newVec, .newObject, .bCall0,
    .bCall1, .bCall2, .bCall3, .bCall4, .bCall5, .bCall6, .call, .callMulti, .callV, .callVCond,
    .funStart, .funEnd, .funMulti, .ret, .pushFun, .coro, .coCl, .coEnd, .yield, .iFor, .sFor,
    .vFor, .sForRef, .vForRef, .jump, .jumpFail, .jumpFailR, .jumpFailN, .jumpNoFail,
    .jumpNoFailR, .logRead, .logWrite, .exit]

/-- One past the largest encoding. -/
def count : Nat := all.size

/-- The word that stands for the opcode in the instruction stream. -/
def encoding (opcode : Opcode) : Nat := opcode.ctorIdx

/-- The opcode a word stands for, if it stands for one. -/
def ofWord? (word : Word) : Option Opcode := word.index?.bind fun index => all[index]?

/-- The name of the opcode, which is also the suffix of its runtime handler. -/
def name : Opcode → String
  | .pushInt => "PUSHINT"
  | .pushInt64 => "PUSHINT64"
  | .pushFlt => "PUSHFLT"
  | .pushFlt64 => "PUSHFLT64"
  | .pushStr => "PUSHSTR"
  | .pushNil => "PUSHNIL"
  | .pushVar => "PUSHVAR"
  | .pushVarRef => "PUSHVARREF"
  | .pushFld => "PUSHFLD"
  | .pushFldMRef => "PUSHFLDMREF"
  | .pushLoc => "PUSHLOC"
  | .vPushIdxI => "VPUSHIDXI"
  | .vPushIdxV => "VPUSHIDXV"
  | .nPushIdxI => "NPUSHIDXI"
  | .sPushIdxI => "SPUSHIDXI"
  | .lvalVar => "LVALVAR"
  | .lvalFld => "LVALFLD"
  | .lvalIdxI => "LVALIDXI"
  | .lvalIdxV => "LVALIDXV"
  | .lvalLoc => "LVALLOC"
  | .pop => "POP"
  | .popRef => "POPREF"
  | .dup => "DUP"
  | .iAdd => "IADD"
  | .iSub => "ISUB"
  | .iMul => "IMUL"
  | .iDiv => "IDIV"
  | .iMod => "IMOD"
  | .iLt => "ILT"
  | .iGt => "IGT"
  | .iLe => "ILE"
  | .iGe => "IGE"
  | .iEq => "IEQ"
  | .iNe => "INE"
  | .fAdd => "FADD"
  | .fSub => "FSUB"
  | .fMul => "FMUL"
  | .fDiv => "FDIV"
  | .fMod => "FMOD"
  | .fLt => "FLT"
  | .fGt => "FGT"
  | .fLe => "FLE"
  | .fGe => "FGE"
  | .fEq => "FEQ"
  | .fNe => "FNE"
  | .sAdd => "SADD"
  | .sEq => "SEQ"
  | .sNe => "SNE"
  | .aEq => "AEQ"
  | .aNe => "ANE"
  | .iUMinus => "IUMINUS"
  | .fUMinus => "FUMINUS"
  | .logNot => "LOGNOT"
  | .bitNot => "BINOT"
  | .bitAnd => "BITAND"
  | .bitOr => "BITOR"
  | .xor => "XOR"
  | .asl => "ASL"
  | .asr => "ASR"
  | .i2f => "I2F"
  | .a2s => "A2S"
  | .e2b => "E2B"
  | .isType => "ISTYPE"
  | .newVec => "NEWVEC"
  | .newObject => "NEWOBJECT"
  | .bCall0 => "BCALL0"
  | .bCall1 => "BCALL1"
  | .bCall2 => "BCALL2"
  | .bCall3 => "BCALL3"
  | .bCall4 => "BCALL4"
  | .bCall5 => "BCALL5"
  | .bCall6 => "BCALL6"
  | .call => "CALL"
  | .callMulti => "CALLMULTI"
  | .callV => "CALLV"
  | .callVCond => "CALLVCOND"
  | .funStart => "FUNSTART"
  | .funEnd => "FUNEND"
  | .funMulti => "FUNMULTI"
  | .ret => "RETURN"
  | .pushFun => "PUSHFUN"
  | .coro => "CORO"
  | .coCl => "COCL"
  | .coEnd => "COEND"
  | .yield => "YIELD"
  | .iFor => "IFOR"
  | .sFor => "SFOR"
  | .vFor => "VFOR"
  | .sForRef => "SFORREF"
  | .vForRef => "VFORREF"
  | .jump => "JUMP"
  | .jumpFail => "JUMPFAIL"
  | .jumpFailR => "JUMPFAILR"
  | .jumpFailN => "JUMPFAILN"
  | .jumpNoFail => "JUMPNOFAIL"
  | .jumpNoFailR => "JUMPNOFAILR"
  | .logRead => "LOGREAD"
  | .logWrite => "LOGWRITE"
  | .exit => "EXIT"

@[simp] theorem all_encoding (opcode : Opcode) : all[opcode.encoding]? = some opcode := by
  cases opcode <;> rfl

end Opcode

end ThreadedCode
