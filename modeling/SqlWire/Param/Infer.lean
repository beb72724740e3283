import SqlWire.Param.Basic

/-! Guessing what a word stands for when nothing but the word is given. -/
namespace SqlWire.Param

/-- An integer if the word fits one, else a number if it is one and has a digit,
else a truth value, else text. The words for what is not finite stay text. -/
def infer (word : Text) : Param :=
  match Numeral.readInt64 word with
  | .ok n => .int n
  | .error _ =>
    match if word.any Char.isDigit then FloatText.readNumeral? word else none with
    | some x => .float x
    | none =>
      if word = "true".toList then .bool true
      else if word = "false".toList then .bool false
      else .text word

end SqlWire.Param
