import ContractKit.Text.Split

/-!
# Upper and lower case

The full case mappings of Unicode 14, without the rules that depend on the neighbours of a
character.  Most characters map to one character, at a distance that many neighbours share,
so a table lists a character by its code point and the one it maps to, or a run of them:
every `step`-th code point from `first` to `last`, and what the first maps to.  A few
characters map to several.
-/

namespace ContractKit.Text

/-- Code points above ASCII with an upper-case form. -/
def upperRows : List (List Nat) :=
  numberRows [
    "b5 39c;e0 f6 1 c0;f8 fe 1 d8;ff 178;101 12f 2 100;131 49;133 137 2 132;13a 148 2 139",
    "14b 177 2 14a;17a 17e 2 179;17f 53;180 243;183 185 2 182;188 187;18c 18b;192 191;195 1f6",
    "199 198;19a 23d;19e 220;1a1 1a5 2 1a0;1a8 1a7;1ad 1ac;1b0 1af;1b4 1b6 2 1b3;1b9 1b8;1bd 1bc",
    "1bf 1f7;1c5 1c4;1c6 1c4;1c8 1c7;1c9 1c7;1cb 1ca;1cc 1ca;1ce 1dc 2 1cd;1dd 18e;1df 1ef 2 1de",
    "1f2 1f1;1f3 1f1;1f5 1f4;1f9 21f 2 1f8;223 233 2 222;23c 23b;23f 240 1 2c7e;242 241",
    "247 24f 2 246;250 2c6f;251 2c6d;252 2c70;253 181;254 186;256 257 1 189;259 18f;25b 190",
    "25c a7ab;260 193;261 a7ac;263 194;265 a78d;266 a7aa;268 197;269 196;26a a7ae;26b 2c62",
    "26c a7ad;26f 19c;271 2c6e;272 19d;275 19f;27d 2c64;280 1a6;282 a7c5;283 1a9;287 a7b1;288 1ae",
    "289 244;28a 28b 1 1b1;28c 245;292 1b7;29d a7b2;29e a7b0;345 399;371 373 2 370;377 376",
    "37b 37d 1 3fd;3ac 386;3ad 3af 1 388;3b1 3c1 1 391;3c2 3a3;3c3 3cb 1 3a3;3cc 38c",
    "3cd 3ce 1 38e;3d0 392;3d1 398;3d5 3a6;3d6 3a0;3d7 3cf;3d9 3ef 2 3d8;3f0 39a;3f1 3a1;3f2 3f9",
    "3f3 37f;3f5 395;3f8 3f7;3fb 3fa;430 44f 1 410;450 45f 1 400;461 481 2 460;48b 4bf 2 48a",
    "4c2 4ce 2 4c1;4cf 4c0;4d1 52f 2 4d0;561 586 1 531;10d0 10fa 1 1c90;10fd 10ff 1 1cbd",
    "13f8 13fd 1 13f0;1c80 412;1c81 414;1c82 41e;1c83 1c84 1 421;1c85 422;1c86 42a;1c87 462",
    "1c88 a64a;1d79 a77d;1d7d 2c63;1d8e a7c6;1e01 1e95 2 1e00;1e9b 1e60;1ea1 1eff 2 1ea0",
    "1f00 1f07 1 1f08;1f10 1f15 1 1f18;1f20 1f27 1 1f28;1f30 1f37 1 1f38;1f40 1f45 1 1f48",
    "1f51 1f57 2 1f59;1f60 1f67 1 1f68;1f70 1f71 1 1fba;1f72 1f75 1 1fc8;1f76 1f77 1 1fda",
    "1f78 1f79 1 1ff8;1f7a 1f7b 1 1fea;1f7c 1f7d 1 1ffa;1fb0 1fb1 1 1fb8;1fbe 399",
    "1fd0 1fd1 1 1fd8;1fe0 1fe1 1 1fe8;1fe5 1fec;214e 2132;2170 217f 1 2160;2184 2183",
    "24d0 24e9 1 24b6;2c30 2c5f 1 2c00;2c61 2c60;2c65 23a;2c66 23e;2c68 2c6c 2 2c67;2c73 2c72",
    "2c76 2c75;2c81 2ce3 2 2c80;2cec 2cee 2 2ceb;2cf3 2cf2;2d00 2d25 1 10a0;2d27 10c7;2d2d 10cd",
    "a641 a66d 2 a640;a681 a69b 2 a680;a723 a72f 2 a722;a733 a76f 2 a732;a77a a77c 2 a779",
    "a77f a787 2 a77e;a78c a78b;a791 a793 2 a790;a794 a7c4;a797 a7a9 2 a796;a7b5 a7c3 2 a7b4",
    "a7c8 a7ca 2 a7c7;a7d1 a7d0;a7d7 a7d9 2 a7d6;a7f6 a7f5;ab53 a7b3;ab70 abbf 1 13a0",
    "ff41 ff5a 1 ff21;10428 1044f 1 10400;104d8 104fb 1 104b0;10597 105a1 1 10570",
    "105a3 105b1 1 1057c;105b3 105b9 1 1058c;105bb 105bc 1 10594;10cc0 10cf2 1 10c80",
    "118c0 118df 1 118a0;16e60 16e7f 1 16e40;1e922 1e943 1 1e900"]

/-- Code points whose upper-case form is longer. -/
def upperLong : List (Nat × List Nat) :=
  blockRows [
    "df;53 53|149;2bc 4e|1f0;4a 30c|390;399 308 301|3b0;3a5 308 301|587;535 552",
    "1e96;48 331;54 308;57 30a;59 30a;41 2be|1f50;3a5 313;;3a5 313 300;;3a5 313 301;;3a5 313 342",
    "1f80;1f08 399;1f09 399;1f0a 399;1f0b 399;1f0c 399;1f0d 399;1f0e 399;1f0f 399;1f08 399",
    "1f89;1f09 399;1f0a 399;1f0b 399;1f0c 399;1f0d 399;1f0e 399;1f0f 399;1f28 399;1f29 399",
    "1f92;1f2a 399;1f2b 399;1f2c 399;1f2d 399;1f2e 399;1f2f 399;1f28 399;1f29 399;1f2a 399",
    "1f9b;1f2b 399;1f2c 399;1f2d 399;1f2e 399;1f2f 399;1f68 399;1f69 399;1f6a 399;1f6b 399",
    "1fa4;1f6c 399;1f6d 399;1f6e 399;1f6f 399;1f68 399;1f69 399;1f6a 399;1f6b 399;1f6c 399",
    "1fad;1f6d 399;1f6e 399;1f6f 399;;;1fba 399;391 399;386 399;;391 342;391 342 399;;;;;391 399",
    "1fc2;1fca 399;397 399;389 399;;397 342;397 342 399;;;;;397 399",
    "1fd2;399 308 300;399 308 301;;;399 342;399 308 342",
    "1fe2;3a5 308 300;3a5 308 301;3a1 313;;3a5 342;3a5 308 342",
    "1ff2;1ffa 399;3a9 399;38f 399;;3a9 342;3a9 342 399;;;;;3a9 399",
    "fb00;46 46;46 49;46 4c;46 46 49;46 46 4c;53 54;53 54",
    "fb13;544 546;544 535;544 53b;54e 546;544 53d"]

/-- Code points above ASCII whose lower-case form is not the first one that they are the
upper-case form of. -/
def lowerRows : List (List Nat) :=
  numberRows [
    "1c4 1c6;1c5 1c6;1c7 1c9;1c8 1c9;1ca 1cc;1cb 1cc;1f1 1f3;1f2 1f3;399 3b9;39c 3bc;3a3 3c3",
    "3f4 3b8;1e9e df;1f88 1f8f 1 1f80;1f98 1f9f 1 1f90;1fa8 1faf 1 1fa0;1fbc 1fb3;1fcc 1fc3",
    "1ffc 1ff3;2126 3c9;212a 6b;212b e5;a64a a64b"]

/-- Code points whose lower-case form is longer. -/
def lowerLong : List (Nat × List Nat) :=
  blockRows ["130;69 307"]

/-- The code point that a row gives for a code point. -/
def caseOf? (n : Nat) : List Nat → Option Nat
  | [first, form] => if n = first then some form else none
  | [first, last, step, form] =>
    if first ≤ n ∧ n ≤ last ∧ (n - first) % step = 0 then some (form + (n - first)) else none
  | _ => none

/-- The code point that a row gives a code point for. -/
def sourceOf? (n : Nat) : List Nat → Option Nat
  | [first, form] => if n = form then some first else none
  | [first, last, step, form] =>
    if form ≤ n ∧ n ≤ form + (last - first) ∧ (n - form) % step = 0 then
      some (first + (n - form))
    else none
  | _ => none

/-- The upper-case form of a code point above ASCII. -/
def upperOf (n : Nat) : List Nat :=
  (upperLong.lookup n).getD [(upperRows.findSome? (caseOf? n)).getD n]

/-- The lower-case form of a code point above ASCII. -/
def lowerOf (n : Nat) : List Nat :=
  (lowerLong.lookup n).getD
    [(lowerRows.findSome? (caseOf? n) <|> upperRows.findSome? (sourceOf? n)).getD n]

def upperForm (c : Char) : List Char :=
  if c.toNat < 128 then [c.toUpper] else (upperOf c.toNat).map Char.ofNat

def lowerForm (c : Char) : List Char :=
  if c.toNat < 128 then [c.toLower] else (lowerOf c.toNat).map Char.ofNat

def toUpper (s : String) : String := String.ofList (s.toList.flatMap upperForm)

def toLower (s : String) : String := String.ofList (s.toList.flatMap lowerForm)

end ContractKit.Text
