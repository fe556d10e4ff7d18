/-!
# Letter case

The case maps of Unicode, character by character. Most letters map to one letter at a constant
distance inside a run of code points; a few map to several letters. A capital sigma has only its
ordinary small form here: the form for the end of a word is not distinguished.
-/

namespace TriggerScript.Text

/-- Code points `first`, `first + step`, …, `last`, each of which maps to the one `shift` away. -/
structure CaseRun where
  first : Nat
  last : Nat
  step : Nat
  shift : Int

def CaseRun.one (n : Nat) (shift : Int) : CaseRun := ⟨n, n, 1, shift⟩

/-- Characters outside ASCII with one small form. -/
def lowerRuns : Array CaseRun := #[
  ⟨192,214,1,32⟩, ⟨216,222,1,32⟩, ⟨256,302,2,1⟩, ⟨306,310,2,1⟩, ⟨313,327,2,1⟩,
  ⟨330,374,2,1⟩, .one 376 (-121), ⟨377,381,2,1⟩, .one 385 210, ⟨386,388,2,1⟩, .one 390 206,
  .one 391 1, ⟨393,394,1,205⟩, .one 395 1, .one 398 79, .one 399 202, .one 400 203, .one 401 1,
  .one 403 205, .one 404 207, .one 406 211, .one 407 209, .one 408 1, .one 412 211, .one 413 213,
  .one 415 214, ⟨416,420,2,1⟩, .one 422 218, .one 423 1, .one 425 218, .one 428 1, .one 430 218,
  .one 431 1, ⟨433,434,1,217⟩, ⟨435,437,2,1⟩, .one 439 219, .one 440 1, .one 444 1,
  .one 452 2, .one 453 1, .one 455 2, .one 456 1, .one 458 2, ⟨459,475,2,1⟩, ⟨478,494,2,1⟩,
  .one 497 2, ⟨498,500,2,1⟩, .one 502 (-97), .one 503 (-56), ⟨504,542,2,1⟩, .one 544 (-130),
  ⟨546,562,2,1⟩, .one 570 10795, .one 571 1, .one 573 (-163), .one 574 10792, .one 577 1,
  .one 579 (-195), .one 580 69, .one 581 71, ⟨582,590,2,1⟩, ⟨880,882,2,1⟩, .one 886 1,
  .one 895 116, .one 902 38, ⟨904,906,1,37⟩, .one 908 64, ⟨910,911,1,63⟩, ⟨913,929,1,32⟩,
  ⟨931,939,1,32⟩, .one 975 8, ⟨984,1006,2,1⟩, .one 1012 (-60), .one 1015 1, .one 1017 (-7),
  .one 1018 1, ⟨1021,1023,1,-130⟩, ⟨1024,1039,1,80⟩, ⟨1040,1071,1,32⟩, ⟨1120,1152,2,1⟩,
  ⟨1162,1214,2,1⟩, .one 1216 15, ⟨1217,1229,2,1⟩, ⟨1232,1326,2,1⟩, ⟨1329,1366,1,48⟩,
  ⟨4256,4293,1,7264⟩, .one 4295 7264, .one 4301 7264, ⟨5024,5103,1,38864⟩, ⟨5104,5109,1,8⟩,
  ⟨7312,7354,1,-3008⟩, ⟨7357,7359,1,-3008⟩, ⟨7680,7828,2,1⟩, .one 7838 (-7615),
  ⟨7840,7934,2,1⟩, ⟨7944,7951,1,-8⟩, ⟨7960,7965,1,-8⟩, ⟨7976,7983,1,-8⟩,
  ⟨7992,7999,1,-8⟩, ⟨8008,8013,1,-8⟩, ⟨8025,8031,2,-8⟩, ⟨8040,8047,1,-8⟩,
  ⟨8072,8079,1,-8⟩, ⟨8088,8095,1,-8⟩, ⟨8104,8111,1,-8⟩, ⟨8120,8121,1,-8⟩,
  ⟨8122,8123,1,-74⟩, .one 8124 (-9), ⟨8136,8139,1,-86⟩, .one 8140 (-9), ⟨8152,8153,1,-8⟩,
  ⟨8154,8155,1,-100⟩, ⟨8168,8169,1,-8⟩, ⟨8170,8171,1,-112⟩, .one 8172 (-7),
  ⟨8184,8185,1,-128⟩, ⟨8186,8187,1,-126⟩, .one 8188 (-9), .one 8486 (-7517),
  .one 8490 (-8383), .one 8491 (-8262), .one 8498 28, ⟨8544,8559,1,16⟩, .one 8579 1,
  ⟨9398,9423,1,26⟩, ⟨11264,11311,1,48⟩, .one 11360 1, .one 11362 (-10743), .one 11363 (-3814),
  .one 11364 (-10727), ⟨11367,11371,2,1⟩, .one 11373 (-10780), .one 11374 (-10749),
  .one 11375 (-10783), .one 11376 (-10782), .one 11378 1, .one 11381 1, ⟨11390,11391,1,-10815⟩,
  ⟨11392,11490,2,1⟩, ⟨11499,11501,2,1⟩, .one 11506 1, ⟨42560,42604,2,1⟩,
  ⟨42624,42650,2,1⟩, ⟨42786,42798,2,1⟩, ⟨42802,42862,2,1⟩, ⟨42873,42875,2,1⟩,
  .one 42877 (-35332), ⟨42878,42886,2,1⟩, .one 42891 1, .one 42893 (-42280),
  ⟨42896,42898,2,1⟩, ⟨42902,42920,2,1⟩, .one 42922 (-42308), .one 42923 (-42319),
  .one 42924 (-42315), .one 42925 (-42305), .one 42926 (-42308), .one 42928 (-42258),
  .one 42929 (-42282), .one 42930 (-42261), .one 42931 928, ⟨42932,42946,2,1⟩, .one 42948 (-48),
  .one 42949 (-42307), .one 42950 (-35384), ⟨42951,42953,2,1⟩, .one 42960 1,
  ⟨42966,42968,2,1⟩, .one 42997 1, ⟨65313,65338,1,32⟩, ⟨66560,66599,1,40⟩,
  ⟨66736,66771,1,40⟩, ⟨66928,66938,1,39⟩, ⟨66940,66954,1,39⟩, ⟨66956,66962,1,39⟩,
  ⟨66964,66965,1,39⟩, ⟨68736,68786,1,64⟩, ⟨71840,71871,1,32⟩, ⟨93760,93791,1,32⟩,
  ⟨125184,125217,1,34⟩]

def lowerLong : Array (Nat × List Nat) := #[
  (304,[105,775])]

def CaseRun.back (r : CaseRun) : CaseRun where
  first := Int.toNat (r.first + r.shift)
  last := Int.toNat (r.last + r.shift)
  step := r.step
  shift := -r.shift

def upperExtras : Array CaseRun := #[
  .one 181 743, .one 305 (-232), .one 383 (-300), .one 453 (-1), .one 456 (-1), .one 459 (-1),
  .one 498 (-1), .one 837 84, .one 962 (-31), .one 976 (-62), .one 977 (-57), .one 981 (-47),
  .one 982 (-54), .one 1008 (-86), .one 1009 (-80), .one 1013 (-96), .one 7296 (-6254),
  .one 7297 (-6253), .one 7298 (-6244), ⟨7299,7300,1,-6242⟩, .one 7301 (-6243),
  .one 7302 (-6236), .one 7303 (-6181), .one 7304 35266, .one 7835 (-59), .one 8126 (-7205)]

def upperRuns : Array CaseRun := upperExtras ++ lowerRuns.map (·.back)

def commonLong : Array (Nat × List Nat) := #[
  (329,[700,78]), (496,[74,780]), (912,[921,776,769]), (944,[933,776,769]),
  (7830,[72,817]), (7831,[84,776]), (7832,[87,778]), (7833,[89,778]), (7834,[65,702]),
  (8016,[933,787]), (8018,[933,787,768]), (8020,[933,787,769]), (8022,[933,787,834]),
  (8118,[913,834]), (8134,[919,834]), (8146,[921,776,768]), (8147,[921,776,769]),
  (8150,[921,834]), (8151,[921,776,834]), (8162,[933,776,768]), (8163,[933,776,769]),
  (8164,[929,787]), (8166,[933,834]), (8167,[933,776,834]), (8182,[937,834])]

def iotaLong (first capital : Nat) : Array (Nat × List Nat) :=
  Array.ofFn fun i : Fin 16 ↦ (first + i, [capital + i % 8, 921])

def upperLong : Array (Nat × List Nat) :=
  commonLong ++ iotaLong 8064 7944 ++ iotaLong 8080 7976 ++ iotaLong 8096 8040 ++ #[
  (223,[83,83]), (1415,[1333,1362]), (8114,[8122,921]), (8115,[913,921]),
  (8116,[902,921]), (8119,[913,834,921]), (8124,[913,921]), (8130,[8138,921]),
  (8131,[919,921]), (8132,[905,921]), (8135,[919,834,921]), (8140,[919,921]),
  (8178,[8186,921]), (8179,[937,921]), (8180,[911,921]), (8183,[937,834,921]),
  (8188,[937,921]), (64256,[70,70]), (64257,[70,73]), (64258,[70,76]),
  (64259,[70,70,73]), (64260,[70,70,76]), (64261,[83,84]), (64262,[83,84]),
  (64275,[1348,1350]), (64276,[1348,1333]), (64277,[1348,1339]), (64278,[1358,1350]),
  (64279,[1348,1341])]

def titleExtras : Array CaseRun := #[
  .one 452 1, .one 453 0, .one 454 (-1), .one 455 1, .one 456 0, .one 457 (-1), .one 458 1,
  .one 459 0, .one 460 (-1), .one 497 1, .one 498 0, .one 499 (-1), ⟨4304,4346,1,0⟩,
  ⟨4349,4351,1,0⟩]

def titleRuns : Array CaseRun := titleExtras ++ upperRuns

def titleLong : Array (Nat × List Nat) := commonLong ++ #[
  (223,[83,115]), (1415,[1333,1410]), (8114,[8122,837]), (8116,[902,837]),
  (8119,[913,834,837]), (8130,[8138,837]), (8132,[905,837]), (8135,[919,834,837]),
  (8178,[8186,837]), (8180,[911,837]), (8183,[937,834,837]), (64256,[70,102]),
  (64257,[70,105]), (64258,[70,108]), (64259,[70,102,105]), (64260,[70,102,108]),
  (64261,[83,116]), (64262,[83,116]), (64275,[1348,1398]), (64276,[1348,1381]),
  (64277,[1348,1387]), (64278,[1358,1398]), (64279,[1348,1389])]

def mapCase (runs : Array CaseRun) (long : Array (Nat × List Nat)) (c : Char) : List Char :=
  let n := c.toNat
  match long.find? fun e ↦ e.1 == n with
  | some e => e.2.map Char.ofNat
  | none =>
    match runs.find? fun r ↦ r.first ≤ n && n ≤ r.last && (n - r.first) % r.step == 0 with
    | some r => [Char.ofNat (Int.toNat ((n : Int) + r.shift))]
    | none => [c]

def lowerChar (c : Char) : List Char :=
  if c.toNat < 128 then [c.toLower] else mapCase lowerRuns lowerLong c

def upperChar (c : Char) : List Char :=
  if c.toNat < 128 then [c.toUpper] else mapCase upperRuns upperLong c

def titleChar (c : Char) : List Char :=
  if c.toNat < 128 then [c.toUpper] else mapCase titleRuns titleLong c

def lower (cs : List Char) : List Char := cs.flatMap lowerChar

def upper (cs : List Char) : List Char := cs.flatMap upperChar

def capitalize : List Char → List Char
  | [] => []
  | c :: cs => titleChar c ++ lower cs

end TriggerScript.Text
