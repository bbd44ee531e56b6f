import ContractKit.Text.Case

/-!
# Combining classes and composites

How strongly a mark combines with the character before it, and which pairs of characters
make one character (Unicode 14).  Syllables of Hangul are composed by a rule and are not
listed.
-/

namespace ContractKit.Text

/-- Sets of code points with their combining class: the class, and the set as gaps and sizes. -/
def classes : List (Nat × Ranges) :=
  [
    "1;334 5 199b 1 d 7 3e9 2 4 3 a 2 3 2 e94d 1 60b6 5 51a9 1 14c8 3|6;16ff0 2",
    "7;93c 1 7f 1 7f 1 7f 1 7f 1 ff 1 7f 1 37a 1 afc 1 b1 1 50 1 8d7b 1 6706 1 b8 1 56 1 6b 1",
    "7;112e9 1 51 2 109 1 7c 1 fc 1 f6 1 182 1 108 1 3fe 1 cc07 1|8;3099 2",
    "9;94d 1 7f 1 7f 1 7f 1 7f 1 7f 1 7f 1 7f 1 6d 2 10 1 7c 1 6f 1 7f 1 c9 1 b4 2 6d9 2 1e 1",
    "9;17d2 1 28d 1 e3 1 65 2 46 2 118b 1 7a86 1 25 1 97 1 8e 1 6c 1 135 1 f6 1 5e51 1 606 1",
    "9;11070 1 e 1 39 1 79 2 8b 1 74 1 b4 1 62 1 f4 1 7f 1 fc 1 7f 1 76 1 74 1 10d 1 103 2",
    "9;119e0 1 53 1 12 1 51 1 1a5 1 104 2 51 1|a;5b0 1|b;5b1 1|c;5b2 1|d;5b3 1|e;5b4 1|f;5b5 1",
    "10;5b6 1|11;5b7 1|12;5b8 1 e 1|13;5b9 2|14;5bb 1|15;5bc 1|16;5bd 1|17;5bf 1|18;5c1 1",
    "19;5c2 1|1a;fb1e 1|1b;64b 1 2a4 1|1c;64c 1 2a4 1|1d;64d 1 2a4 1|1e;618 1 35 1",
    "1f;619 1 35 1|20;61a 1 35 1|21;651 1|22;652 1|23;670 1|24;711 1|54;c55 1|5b;c56 1|67;e38 2",
    "6b;e48 4|76;eb8 2|7a;ec8 4|81;f71 1|82;f72 1 7 4 2 1|84;f74 1|ca;321 2 4 2 1aa7 1",
    "d6;1dce 1|d8;31b 1 c1d 1 1c22b 2 7 5|da;1dfa 1 122f 1",
    "dc;316 4 2 5 2 4 2 b 5 4 a 3 3 2 4 4 2 2 236 1 4 1 4 1 6 6 2 1 1a 1 8f 2 5 1 2 1 83 1",
    "dc;6ea 1 2 1 43 1 2 1 2 3 1 2 1 1 3 1 1 1 1 1 1 1 a9 1 a 1 5b 3 3d 3 33 5 f 1 2 1 2 1",
    "dc;8ed 3 6 1 2 2 57 1 5c5 2 1b 1 1 1 8e 1 c6 1 8ad 1 dc 1 66 1 35 6 2 1 1 2 2 2 5 1 a1 1",
    "dc;1cd5 5 2 4 d 1 d4 1 7 1 4 1 29 1 3 1 1 1 2e8 1 3 4 883b 3 186 1 5372 7 3cf 1 e2 1",
    "dc;10a0d 1 2c 1 ab 1 45f 2 3 1 1 4 32 1 1 1 c1f5 8 7 2 1744 7|de;59a 1 12 1 138b 1 16f3 1",
    "e0;302e 2|e2;1d16d 1|e4;5ae 1 12fa 1 54d 2 1232 1",
    "e6;300 15 28 8 1 1 3 3 3 3 4 1 3 1 7 d 113 5 10a 4 1 3 2 6 6 2 1 2 2 1 14 1 4b 8 3b 2",
    "e6;657 5 1 2 77 7 2 4 1 1 2 2 2 2 43 1 1 2 1 2 3 1 2 1 1 3 1 1 1 1 1 1 1 2 a0 7 1 1 22 4",
    "e6;81b 9 1 3 1 5 6a 1 3 4 2a 5 5 e 2 2 1 2 1 3 6 3 1 2 2 5 51 1 1 2 a9 1 583 2 2 2 3d5 3",
    "e6;17dd 1 15c 1 dc 1 5d 8 33 5 6 2 4 2 2 5 1 4 9c 1 1 7 15c 3 7 2 4 1 13 1 3 2 c6 2 1 7",
    "e6;1dcb 2 4 25 5 1 2 1 2d1 2 2 4 3 2 4 1 5 1 1 1 6 1 bfe 3 ee 20 786f 1 4 a 20 2 50 2",
    "e6;a8e0 12 1be 1 1 2 3 2 5 2 1 1 535e 7 7 2 546 5 694 1 28 1 ac 1 23e 4 183 2 9b 3 1 1",
    "e6;10f82 1 1 1 17b 3 263 7 3 5 e9 1 56d1 7 664e 5 20 4 94 3 dbb 7 1 11 2 7 1 2 1 5 105 7",
    "e6;1e2ae 1 3d 4 654 6|e8;315 1 4 1 3d 1 1a9d 1 1235 1|e9;35c 1 2 1 2 1 1a99 1",
    "ea;35d 2 1 2 1a6b 1|f0;345 1"].flatMap fun line =>
    (splitChars '|' line.toList).filterMap fun row =>
      match (splitChars ';' row).map (hexNumbers none) with
      | [[k], table] => some (k, ⟨Ranges.boundsFrom 0 table⟩)
      | _ => none

/-- The combining class of a code point; zero for a character that stands for itself. -/
def combiningClass (n : Nat) : Nat :=
  ((classes.find? fun entry => entry.2.contains n).map Prod.fst).getD 0

/-- Composites with their two parts, without the forms in lower case of others. -/
def listedComposites : List (Nat × List Nat) :=
  blockRows [
    "c0;41 300;41 301;41 302;41 303;41 308;41 30a;;43 327;45 300;45 301;45 302;45 308;49 300",
    "cd;49 301;49 302;49 308;;4e 303;4f 300;4f 301;4f 302;4f 303;4f 308;;;55 300;55 301;55 302",
    "dc;55 308;59 301|100;41 304;;41 306;;41 328;;43 301;;43 302;;43 307;;43 30c;;44 30c",
    "112;45 304;;45 306;;45 307;;45 328;;45 30c;;47 302;;47 306;;47 307;;47 327;;48 302",
    "128;49 303;;49 304;;49 306;;49 328;;49 307;;;;4a 302;;4b 327;;;4c 301;;4c 327;;4c 30c",
    "143;4e 301;;4e 327;;4e 30c;;;;;4f 304;;4f 306;;4f 30b;;;;52 301;;52 327;;52 30c;;53 301",
    "15c;53 302;;53 327;;53 30c;;54 327;;54 30c;;;;55 303;;55 304;;55 306;;55 30a;;55 30b",
    "172;55 328;;57 302;;59 302;;59 308;5a 301;;5a 307;;5a 30c|1a0;4f 31b|1af;55 31b|1cd;41 30c",
    "1ce;;49 30c;;4f 30c;;55 30c;;dc 304;;dc 301;;dc 30c;;dc 300;;;c4 304;;226 304;;c6 304",
    "1e6;47 30c;;4b 30c;;4f 328;;1ea 304;;1b7 30c;;6a 30c;;;;47 301;;;;4e 300;;c5 301;;c6 301",
    "1fe;d8 301;;41 30f;;41 311;;45 30f;;45 311;;49 30f;;49 311;;4f 30f;;4f 311;;52 30f;;52 311",
    "213;;55 30f;;55 311;;53 326;;54 326;;;;48 30c|226;41 307;;45 327;;d6 304;;d5 304;;4f 307",
    "230;22e 304;;59 304|385;a8 301;391 301;;395 301;397 301;399 301;;39f 301;;3a5 301;3a9 301",
    "390;3ca 301|3aa;399 308;3a5 308;;;;;3cb 301|3d3;3d2 301;3d2 308|400;415 300;415 308",
    "403;413 301;;;;406 308;;;;;41a 301;418 300;423 306|419;418 306|476;474 30f|4c1;416 306",
    "4d0;410 306;;410 308;;;;415 306;;;;4d8 308;;416 308;;417 308;;;;418 304;;418 308;;41e 308",
    "4e8;;;4e8 308;;42d 308;;423 304;;423 308;;423 30b;;427 308;;;;42b 308|622;627 653;627 654",
    "624;648 654;627 655;64a 654|6c0;6d5 654;;6c1 654|6d3;6d2 654|929;928 93c|931;930 93c",
    "934;933 93c|9cb;9c7 9be;9c7 9d7|b48;b47 b56;;;b47 b3e;b47 b57|b94;b92 bd7|bca;bc6 bbe",
    "bcb;bc7 bbe;bc6 bd7|c48;c46 c56|cc0;cbf cd5|cc7;cc6 cd5;cc6 cd6;;cc6 cc2;cca cd5",
    "d4a;d46 d3e;d47 d3e;d46 d57|dda;dd9 dca;;dd9 dcf;ddc dca;dd9 ddf|1026;1025 102e",
    "1b06;1b05 1b35;;1b07 1b35;;1b09 1b35;;1b0b 1b35;;1b0d 1b35;;;;1b11 1b35|1b3b;1b3a 1b35",
    "1b3d;1b3c 1b35;;;1b3e 1b35;1b3f 1b35;;1b42 1b35|1e00;41 325;;42 307;;42 323;;42 331",
    "1e08;c7 301;;44 307;;44 323;;44 331;;44 327;;44 32d;;112 300;;112 301;;45 32d;;45 330",
    "1e1c;228 306;;46 307;;47 304;;48 307;;48 323;;48 308;;48 327;;48 32e;;49 330;;cf 301",
    "1e30;4b 301;;4b 323;;4b 331;;4c 323;;1e36 304;;4c 331;;4c 32d;;4d 301;;4d 307;;4d 323",
    "1e44;4e 307;;4e 323;;4e 331;;4e 32d;;d5 301;;d5 308;;14c 300;;14c 301;;50 301;;50 307",
    "1e58;52 307;;52 323;;1e5a 304;;52 331;;53 307;;53 323;;15a 307;;160 307;;1e62 307;;54 307",
    "1e6c;54 323;;54 331;;54 32d;;55 324;;55 330;;55 32d;;168 301;;16a 308;;56 303;;56 323",
    "1e80;57 300;;57 301;;57 308;;57 307;;57 323;;58 307;;58 308;;59 307;;5a 302;;5a 323",
    "1e94;5a 331;;68 331;74 308;77 30a;79 30a;;17f 307;;;;;41 323;;41 309;;c2 301;;c2 300",
    "1ea8;c2 309;;c2 303;;1ea0 302;;102 301;;102 300;;102 309;;102 303;;1ea0 306;;45 323",
    "1eba;45 309;;45 303;;ca 301;;ca 300;;ca 309;;ca 303;;1eb8 302;;49 309;;49 323;;4f 323",
    "1ece;4f 309;;d4 301;;d4 300;;d4 309;;d4 303;;1ecc 302;;1a0 301;;1a0 300;;1a0 309;;1a0 303",
    "1ee2;1a0 323;;55 323;;55 309;;1af 301;;1af 300;;1af 309;;1af 303;;1af 323;;59 300;;59 323",
    "1ef6;59 309;;59 303|1f08;391 313;391 314;1f08 300;1f09 300;1f08 301;1f09 301;1f08 342",
    "1f0f;1f09 342|1f18;395 313;395 314;1f18 300;1f19 300;1f18 301;1f19 301|1f28;397 313",
    "1f29;397 314;1f28 300;1f29 300;1f28 301;1f29 301;1f28 342;1f29 342|1f38;399 313;399 314",
    "1f3a;1f38 300;1f39 300;1f38 301;1f39 301;1f38 342;1f39 342|1f48;39f 313;39f 314;1f48 300",
    "1f4b;1f49 300;1f48 301;1f49 301;;;3c5 313;;1f50 300;;1f50 301;;1f50 342;;;3a5 314",
    "1f5b;1f59 300;;1f59 301;;1f59 342|1f68;3a9 313;3a9 314;1f68 300;1f69 300;1f68 301;1f69 301",
    "1f6e;1f68 342;1f69 342|1f88;1f08 345;1f09 345;1f0a 345;1f0b 345;1f0c 345;1f0d 345;1f0e 345",
    "1f8f;1f0f 345|1f98;1f28 345;1f29 345;1f2a 345;1f2b 345;1f2c 345;1f2d 345;1f2e 345;1f2f 345",
    "1fa8;1f68 345;1f69 345;1f6a 345;1f6b 345;1f6c 345;1f6d 345;1f6e 345;1f6f 345;;;1f70 345",
    "1fb4;3ac 345;;3b1 342;1fb6 345;391 306;391 304;391 300;;391 345;;;;;a8 342;1f74 345",
    "1fc4;3ae 345;;3b7 342;1fc6 345;395 300;;397 300;;397 345;1fbf 300;1fbf 301;1fbf 342",
    "1fd2;3ca 300;;;;3b9 342;3ca 342;399 306;399 304;399 300;;;1ffe 300;1ffe 301;1ffe 342",
    "1fe2;3cb 300;;3c1 313;;3c5 342;3cb 342;3a5 306;3a5 304;3a5 300;;3a1 314;a8 300",
    "1ff2;1f7c 345;;3ce 345;;3c9 342;1ff6 345;39f 300;;3a9 300;;3a9 345|219a;2190 338;2192 338",
    "21ae;2194 338|21cd;21d0 338;21d4 338;21d2 338|2204;2203 338;;;;;2208 338;;;220b 338",
    "2224;2223 338;;2225 338|2241;223c 338;;;2243 338;;;2245 338;;2248 338|2260;3d 338",
    "2262;2261 338|226d;224d 338;3c 338;3e 338;2264 338;2265 338;;;2272 338;2273 338;;;2276 338",
    "2279;2277 338|2280;227a 338;227b 338;;;2282 338;2283 338;;;2286 338;2287 338|22ac;22a2 338",
    "22ad;22a8 338;22a9 338;22ab 338|22e0;227c 338;227d 338;2291 338;2292 338|22ea;22b2 338",
    "22eb;22b3 338;22b4 338;22b5 338|304c;304b 3099;;304d 3099;;304f 3099;;3051 3099;;3053 3099",
    "3055;;3055 3099;;3057 3099;;3059 3099;;305b 3099;;305d 3099;;305f 3099;;3061 3099",
    "3065;3064 3099;;3066 3099;;3068 3099|3070;306f 3099;306f 309a;;3072 3099;3072 309a",
    "3076;3075 3099;3075 309a;;3078 3099;3078 309a;;307b 3099;307b 309a|3094;3046 3099",
    "309e;309d 3099|30ac;30ab 3099;;30ad 3099;;30af 3099;;30b1 3099;;30b3 3099;;30b5 3099",
    "30b8;30b7 3099;;30b9 3099;;30bb 3099;;30bd 3099;;30bf 3099;;30c1 3099;;;30c4 3099",
    "30c7;30c6 3099;;30c8 3099|30d0;30cf 3099;30cf 309a;;30d2 3099;30d2 309a;;30d5 3099",
    "30d7;30d5 309a;;30d8 3099;30d8 309a;;30db 3099;30db 309a|30f4;30a6 3099;;;30ef 3099",
    "30f8;30f0 3099;30f1 3099;30f2 3099;;;;30fd 3099|1109a;11099 110ba;;1109b 110ba",
    "110ab;110a5 110ba|1112e;11131 11127;11132 11127|1134b;11347 1133e;11347 11357",
    "114bb;114b9 114ba;114b9 114b0;;114b9 114bd|115ba;115b8 115af;115b9 115af|11938;11935 11930"]

def lowerComposite? : Nat × List Nat → Option (Nat × List Nat)
  | (n, [base, mark]) =>
    match lowerForm (Char.ofNat n), lowerForm (Char.ofNat base) with
    | [l], [lowerBase] => if l.toNat = n then none else some (l.toNat, [lowerBase.toNat, mark])
    | _, _ => none
  | _ => none

/-- Composites with their two parts. -/
def composites : List (Nat × List Nat) :=
  listedComposites ++ listedComposites.filterMap lowerComposite?

/-- The code point that a listed pair makes. -/
def composite? (a b : Nat) : Option Nat :=
  (composites.find? fun entry => entry.2 == [a, b]).map Prod.fst

end ContractKit.Text
