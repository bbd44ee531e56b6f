import ContractKit.Text.Class.Identifier

/-!
# Printable characters

The characters that stand for themselves when a text is shown between quotes: all but
controls, format characters, surrogates, private and unassigned code points, and
separators other than the space (Unicode 14).
-/

namespace ContractKit.Text

/-- Printable code points above ASCII that are no part of an identifier. -/
def otherPrintables : Ranges :=
  .ofTable
    ["a1 9 1 2 1 7 1 1 1 2 1 5 17 1 1f 1 1ca 4 c e 5 7 1 1 1 11 75 1 4 1 3 1 5 2 70 1 8b 1 5 2 d0",
     "6 29 2 2 3 2e 1 1 1 2 1 2 1 2c 2 11 a b 1 1 3 4a 4 66 1 9 1 a 1 13 2 1 e e8 4 4 2 30 f 1f 1",
     "29 1 db 2 a 1 81 a 1 1 78 1 79 2 7e 1 1 6 78 b 7c 9 4 1 ca 1 8 7 11 a 7a 1 4a 1 f 1 a 2 a5",
     "17 2 6 a b 1 1 1 1 1 4 47 1 38 8 1 6 1 d 6f 6 4e 2 5b 1 264 9 9 b 13 a 66 1 26c 2 2c 2 4e 3",
     "47 2 9d 3 1 4 14 a 6 b 135 1 3 2 98 22 1e 2 80 7 1 6 10 1 9b 11 9 b 7d 4 3b 5 3e 2 40 8 b 1",
     "2e9 1 1 3 b 3 d 3 d 3 d 2 11 18 8 f 2 13 1 a 11 1 3 b 1 f 11 21 1c 4 1 3 1b 2 1 4 1 2 a 1 1",
     "2 6 6 1 1 1 1 1 1 10 2 4 5 5 4 1 11 29 3 4 297 19 b 15 714 2 20 1 69 e5 6 e 7 70 1 8f 5e 22",
     "1a 1 59 c d6 1a c 5 4 3 19 f 1 5 2 5 3 5b 2 3 1 5a 1 94 10 20 24 1c 1f 1 1e0 19c0 40 5690",
     "37 37 2 10d 3 60 4 a 1 73 6 8 17 9 2 67 2 9d 4 4 a 3a 4 56 2 28 3 1 1 31 2 2f 1 61 d 10 2",
     "7c 4 17 3 64 2 10 2 69 1 e 2 7f 1 4f3d 1 88 11 9b 6 da 12 7f 1 2a 6 10 a 16 3 2 18 3 3 1 13",
     "1 4 4 1 1 1 1 1 1 1 1 1 1 1 1 1 1 1 82 f a 7 1a 4 1 1 1a b 7a 7 1 7 d 2 102 3 4 2d 3 9 35",
     "1a 1 d 3 1 2f 2d e4 1b 24 4 7b 1 30 1 19e 1 2e7 9 17 9 27 9 4b 5 16 6 3 1 1f 1 7c 2 2 10 2",
     "2e 40 9 7 9 24 3 1d 3 28 1 22 c 42 7 18 8 18 8 19 4 c 7 14a 6 160 1f 2e 1 6f a 2a 9 2c 4 3b",
     "7 7b 7 4 14 55 2 1 4 7e 4 30 2 4f 4 4 1 d 1 1 3 1 14 43 6 6b 1 1a1 5 a 2 1 1 68 1 fa 17 69",
     "3 1c d 4c 1 80 6 fb 1 ae 9 51 3 9b 1 5c 8 53 3 1 5 19e 5 14 13 3 2 285 2 c7 32 d 1 470 5",
     "b7c 2 3a7b 2 85 1 41 9 4 2 15 7 31e 1b 147 1 4cb9 1 2 1 12b0 74 3c f6 a 27 2 3c 5 3 16 2 7",
     "1e 4 3d 15 42 3 1 9a 14 c 57 9 19 348 1 19 1 1f 1 19 1 1f 1 19 1 1f 1 19 1 1f 1 19 1 3c 200",
     "37 4 32 8 1 e 1 7 6c3 1 1af 1 5c7 9 8e 2 311 44 4c 3d 1b2 2 10e 2c 4 64 c f 2 f 1 f 1 25 a",
     "ae 38 1d d 2c 4 9 7 2 e 6 9a 3d8 5 10 3 d 3 74 c 59 7 c 4 1 f c 4 38 8 a 6 28 8 1e 2 2 4e",
     "154 c e 2 5 3 5 3 7 9 1d 3 b 5 6 a a 6 8 8 7 9 93 1 37"]

/-- Whether a code point is shown as itself between quotes. -/
def isPrintable (n : Nat) : Bool :=
  if n < 128 then decide (32 ≤ n ∧ n < 127)
  else identifierStarts.contains n || identifierMarks.contains n || otherPrintables.contains n

end ContractKit.Text
