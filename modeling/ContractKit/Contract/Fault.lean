import ContractKit.Text.Quoted

/-!
# Why a contract cannot be compiled

The causes for which analysis or code generation gives up on a source that has a tree, and
the words for each.
-/

namespace ContractKit

/-- A cause for which a contract cannot be compiled. -/
inductive Fault where
  /-- A text of the form of an address is no hexadecimal number. -/
  | badAddress (text : Text.Points)
  /-- A text holds surrogates, which have no UTF-8 form. -/
  | surrogates (run : Text.SurrogateRun)
  /-- An integer is too long to be shown in decimal. -/
  | tooManyDigits
  /-- A negative integer should be written as a word. -/
  | negativeWord
  /-- An integer needs more bytes than it is given. -/
  | wordTooBig
  /-- A negative number of bytes is asked for. -/
  | negativeLength
  /-- A number does not fit into a byte. -/
  | byteRange
  /-- A value of the given kind stands where an integer should. -/
  | notInteger (kind : String)
  /-- A value of the given kind has no bytes to push. -/
  | noLength (kind : String)
  deriving DecidableEq, Repr

namespace Fault

def surrogatesMessage (run : Text.SurrogateRun) : String :=
  let tail := "surrogates not allowed"
  if run.count = 1 then
    let shown := String.ofList ('\\' :: 'u' :: Text.hexPadded 4 run.point)
    s!"'utf-8' codec can't encode character '{shown}' in position {run.position}: {tail}"
  else
    let last := run.position + run.count - 1
    s!"'utf-8' codec can't encode characters in position {run.position}-{last}: {tail}"

def message : Fault → String
  | .badAddress text =>
    let shown := String.ofList ((Text.quotedPoints text).take 200)
    s!"invalid literal for int() with base 16: {shown}"
  | .surrogates run => surrogatesMessage run
  | .tooManyDigits =>
    "Exceeds the limit (4300 digits) for integer string conversion; " ++
      "use sys.set_int_max_str_digits() to increase the limit"
  | .negativeWord => "can't convert negative int to unsigned"
  | .wordTooBig => "int too big to convert"
  | .negativeLength => "length argument must be non-negative"
  | .byteRange => "byte must be in range(0, 256)"
  | .notInteger kind => s!"'{kind}' object cannot be interpreted as an integer"
  | .noLength kind => s!"object of type '{kind}' has no len()"

end Fault

end ContractKit
