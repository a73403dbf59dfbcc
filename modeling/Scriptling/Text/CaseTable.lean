import Scriptling.Text.ClassTable

/-!
# Tables of case

The upper and lower case of characters above `0x7f`, and their form at the start of a title where that is not their
upper case; the capital and small letters without the other case, and letters that are both in one (Unicode 14). Most
mappings shift a run of code points by one amount; the few that give several characters are listed one by one.
-/

namespace Scriptling.Text

/-- The characters `first`, `first + step`, … `last`, each mapped to itself plus `shift`. -/
structure CaseRun where
  first : Nat
  last : Nat
  /-- Distance of neighbours: 1, or 2 where upper and lower case alternate. -/
  step : Nat
  shift : Int

/-- The runs of one step, by what they add to a code point. -/
def runs (step : Nat) (shifts : List (Int × List Nat)) : Array CaseRun :=
  (shifts.flatMap fun (shift, lengths) =>
    (rangesFrom 0 lengths).map fun (first, last) => ⟨first, last, step, shift⟩).toArray

/-- The run from the characters that a run leads to back to where they come from. -/
def CaseRun.reversed (r : CaseRun) : CaseRun :=
  ⟨(r.first + r.shift).toNat, (r.last + r.shift).toNat, r.step, -r.shift⟩

/-- Small letters on the way to their capitals, where the way back leads to them again. -/
def pairRuns : Array CaseRun := runs 1 [
  (-32,[224,23,1,7,690,17,1,9,100,32,64241,26,6501,32,21888,32]),(121,[255,1]),(195,[384,1]),(-1,[392,1,3,1,5,1,6,1,14,
  1,4,1,2,1,8,1,3,1,55,1,70,1,5,1,308,1,128,1,2,1,7560,1,2780,1,17,1,2,1,124,1,31384,1,68,1,36,1]),(97,[405,1]),(163,
  [410,1]),(130,[414,1,476,3]),(56,[447,1]),(-2,[454,1,2,1,2,1,38,1]),(-79,[477,1]),(10815,[575,2]),(10783,[592,1]),
  (10780,[593,1]),(10782,[594,1]),(-210,[595,1]),(-206,[596,1]),(-205,[598,2,8,1]),(-202,[601,1]),(-203,[603,1]),(42319,
  [604,1]),(42315,[609,1]),(-207,[611,1]),(42280,[613,1]),(42308,[614,1,3,1]),(-209,[616,1]),(-211,[617,1,5,1]),(10743,
  [619,1]),(42305,[620,1]),(10749,[625,1]),(-213,[626,1]),(-214,[629,1]),(10727,[637,1]),(-218,[640,1,2,1,4,1]),(42307,
  [642,1]),(42282,[647,1]),(-69,[649,1]),(-217,[650,2]),(-71,[652,1]),(-219,[658,1]),(42261,[669,1]),(42258,[670,1]),
  (-38,[940,1]),(-37,[941,3]),(-64,[972,1,67827,51]),(-63,[973,2]),(-8,[983,1,4128,6]),(7,[1010,1,7154,1]),(-116,[1011,
  1]),(-80,[1104,16]),(-15,[1231,1]),(-48,[1377,38,9897,48]),(3008,[4304,43,2,3]),(35332,[7545,1]),(3814,[7549,1]),
  (35384,[7566,1]),(8,[7936,8,8,6,10,8,8,8,8,6,26,8,72,2,30,2,14,2]),(74,[8048,2]),(86,[8050,4]),(100,[8054,2]),(128,
  [8056,2]),(112,[8058,2]),(126,[8060,2]),(-28,[8526,1]),(-16,[8560,16]),(-26,[9424,26]),(-10795,[11365,1]),(-10792,
  [11366,1]),(-7264,[11520,38,1,1,5,1]),(48,[42900,1]),(-928,[43859,1]),(-38864,[43888,80]),(-40,[66600,40,136,36]),
  (-39,[66967,11,1,15,1,7,1,2]),(-34,[125218,34])] ++ runs 2 [
  (-1,[257,47,3,5,2,15,2,45,2,5,4,3,27,5,14,3,23,15,2,17,9,39,3,17,19,9,289,3,101,23,113,33,9,53,2,13,2,95,6353,149,11,
  95,3432,5,20,99,8,3,31058,45,19,27,135,13,3,61,10,3,2,9,9,3,3,19,11,15,4,3,12,3]),(8,[8017,7])]

def upperRuns : Array CaseRun := pairRuns ++ runs 1 [
  (743,[181,1]),(-232,[305,1]),(-300,[383,1]),(-1,[453,1,2,1,2,1,38,1]),(84,[837,1]),(-31,[962,1]),(-62,[976,1]),(-57,
  [977,1]),(-47,[981,1]),(-54,[982,1]),(-86,[1008,1]),(-80,[1009,1]),(-96,[1013,1]),(-6254,[7296,1]),(-6253,[7297,1]),
  (-6244,[7298,1]),(-6242,[7299,2]),(-6243,[7301,1]),(-6236,[7302,1]),(-6181,[7303,1]),(35266,[7304,1]),(-59,[7835,1]),
  (-7205,[8126,1])]

def lowerRuns : Array CaseRun := pairRuns.map CaseRun.reversed ++ runs 1 [
  (1,[453,1,2,1,2,1,38,1]),(-60,[1012,1]),(-7615,[7838,1]),(-8,[8072,8,8,8,8,8]),(-9,[8124,1,15,1,47,1]),(-7517,[8486,
  1]),(-8383,[8490,1]),(-8262,[8491,1])]

/-- Characters whose upper case is several characters. Greek vowels with an iota below come in rows of eight. -/
def upperMany : Array (Nat × List Nat) :=
  ([(8064, 7944), (8072, 7944), (8080, 7976), (8088, 7976), (8096, 8040), (8104, 8040)].flatMap
    fun (first, capital) => (List.range 8).map fun i => (first + i, [capital + i, 921])).toArray ++ #[
  (223,[83,83]),(329,[700,78]),(496,[74,780]),(912,[921,776,769]),(944,[933,776,769]),(1415,[1333,1362]),(7830,[72,
  817]),(7831,[84,776]),(7832,[87,778]),(7833,[89,778]),(7834,[65,702]),(8016,[933,787]),(8018,[933,787,768]),(8020,
  [933,787,769]),(8022,[933,787,834]),(8114,[8122,921]),(8115,[913,921]),(8116,[902,921]),(8118,[913,834]),(8119,[913,
  834,921]),(8124,[913,921]),(8130,[8138,921]),(8131,[919,921]),(8132,[905,921]),(8134,[919,834]),(8135,[919,834,921]),
  (8140,[919,921]),(8146,[921,776,768]),(8147,[921,776,769]),(8150,[921,834]),(8151,[921,776,834]),(8162,[933,776,768]),
  (8163,[933,776,769]),(8164,[929,787]),(8166,[933,834]),(8167,[933,776,834]),(8178,[8186,921]),(8179,[937,921]),(8180,
  [911,921]),(8182,[937,834]),(8183,[937,834,921]),(8188,[937,921]),(64256,[70,70]),(64257,[70,73]),(64258,[70,76]),
  (64259,[70,70,73]),(64260,[70,70,76]),(64261,[83,84]),(64262,[83,84]),(64275,[1348,1350]),(64276,[1348,1333]),(64277,
  [1348,1339]),(64278,[1358,1350]),(64279,[1348,1341])]

/-- Characters whose lower case is several characters. -/
def lowerMany : Array (Nat × List Nat) := #[
  (304,[105,775])]

/-- Characters that are skipped when a neighbour with a case is looked for. -/
def caseIgnorableRanges : Array (Nat × Nat) := ranges [
  168,1,4,1,1,1,4,1,2,2,503,192,4,2,4,1,9,2,1,1,251,7,207,1,5,1,49,45,1,1,1,2,1,2,1,1,44,1,11,6,10,11,1,1,35,1,10,21,16,
  1,101,8,1,10,1,4,33,1,1,1,30,27,91,11,58,11,4,1,2,1,24,24,43,3,44,1,7,2,6,8,41,58,55,1,1,1,4,8,4,1,3,7,10,2,13,1,15,1,
  58,1,4,4,8,1,20,2,26,1,2,2,57,1,4,2,4,2,2,3,3,1,30,2,3,1,11,2,57,1,4,5,1,2,4,1,20,2,22,6,1,1,58,1,2,1,1,4,8,1,7,2,11,
  2,30,1,61,1,12,1,50,1,3,1,55,1,1,3,5,3,1,4,7,2,11,2,29,1,58,1,2,1,6,1,5,2,20,2,28,2,57,2,4,4,8,1,20,2,29,1,72,1,7,3,1,
  1,90,1,2,7,11,9,98,1,2,9,9,1,1,6,74,2,27,1,1,1,1,1,55,14,1,5,1,2,5,11,1,36,9,1,102,4,1,6,1,2,2,2,25,2,4,3,16,4,13,1,2,
  2,6,1,15,1,94,1,608,3,946,3,29,2,30,2,30,2,64,2,1,7,8,1,2,11,3,1,5,1,45,5,51,1,65,2,34,1,118,3,4,2,9,1,6,3,219,2,2,1,
  58,1,1,7,1,1,1,1,2,8,6,10,2,1,39,1,8,31,49,4,48,1,1,5,1,1,5,1,40,9,12,2,32,4,2,2,1,3,56,1,1,2,3,1,1,3,58,8,2,2,64,6,
  82,3,1,13,1,7,4,1,6,1,3,2,50,63,13,1,34,101,445,1,1,3,11,3,13,3,13,3,13,2,12,5,8,2,10,1,2,1,2,5,49,5,1,10,1,1,13,1,16,
  13,51,33,2955,2,113,3,125,1,15,1,96,32,47,1,469,1,36,4,3,5,5,1,93,6,93,3,28438,1,1250,6,270,1,98,4,1,10,1,1,28,4,80,2,
  14,34,78,1,23,3,103,3,3,2,8,1,3,1,4,1,25,2,5,1,151,2,26,18,13,1,38,8,25,11,46,3,48,1,2,4,2,2,17,1,21,2,66,6,2,2,2,2,
  12,1,8,1,35,1,11,1,51,1,1,3,2,2,5,2,1,1,27,1,14,2,5,2,1,1,100,5,9,3,121,1,2,1,4,1,20272,1,147,17,573,16,3,1,12,16,34,
  1,2,1,169,1,7,1,6,1,11,1,35,1,1,1,47,1,45,2,67,1,21,3,513,1,226,1,149,5,1029,6,1,42,1,9,582,3,1,2,5,4,40,3,4,1,165,2,
  573,4,387,2,153,11,49,4,123,1,54,15,41,1,2,2,10,3,49,4,2,2,2,1,4,1,10,1,50,3,36,5,1,8,62,1,12,2,52,9,10,4,2,1,95,3,2,
  1,1,2,6,1,160,1,3,8,21,2,57,2,3,1,37,7,3,5,195,8,2,3,1,1,23,1,84,6,1,1,4,2,1,2,238,4,6,2,1,2,27,2,85,8,2,1,1,2,106,1,
  1,1,2,6,1,1,101,3,2,4,1,5,259,9,1,2,256,2,1,1,4,1,144,4,2,2,4,1,32,10,40,6,2,4,8,1,9,6,2,3,46,13,1,2,406,7,1,6,1,1,82,
  22,2,7,1,2,1,2,122,6,3,1,1,2,1,7,1,1,72,2,3,1,1,1,347,2,5435,9,14007,5,59,7,9,4,1035,1,63,17,64,2,1,2,16395,4,1,7,1,2,
  3230,2,1,4,4700,46,2,23,544,3,9,16,2,7,30,4,148,3,1979,55,4,50,8,1,14,1,22,5,1,15,1360,7,1,17,2,7,1,2,1,5,261,14,368,
  1,61,4,1504,7,109,8,2735,5,789505,1,30,96,128,240]

/-- Capitals without a lower case; where the ranges hold other letters, too, these are capitals as well. -/
def capitalRanges : Array (Nat × Nat) := ranges [
  978,3,7469,1,4,1,3,3,2,3,2,1,3,5,6,1,3,1,3,2,2,4,10,2,5,1,111290,26,26,26,26,26,26,1,1,2,2,1,2,2,2,4,1,8,26,26,26,2,1,
  4,2,8,1,7,27,2,1,4,1,5,1,1,3,7,27,26,26,26,26,26,26,26,26,26,26,26,30,25,33,25,33,25,33,25,33,25,33,1,6501,26,6,26,6,
  26]

/-- Small letters without an upper case; where the ranges hold other letters, too, these are small as well. -/
def smallRanges : Array (Nat × Nat) := ranges [
  170,1,15,1,125,1,84,1,13,1,14,2,14,1,3,1,98,1,18,6,27,63,1,36,7,2,30,5,149,1,129,1,355,41,6007,192,220,2,1,1,465,1,13,
  1,16,13,109,1,3,2,3,1,27,1,4,1,4,1,2,2,8,4,2855,1,2,1,2,7,102,1,31159,2,146,2,62,9,21,1,6,1,25,1,35,1,1,1,34,3,821,43,
  1,13,23575,1,2,3,1,42,1,9,52319,26,26,7,1,18,26,26,26,4,1,1,1,7,1,11,26,26,26,26,26,26,26,26,26,26,26,26,26,26,26,26,
  26,28,28,25,1,6,26,25,1,6,26,25,1,6,26,25,1,6,26,25,1,6,1,1,1844,10,1,20]

/-- Characters that are a capital and a small letter in one. -/
def titleLetterRanges : Array (Nat × Nat) := ranges [
  453,1,2,1,2,1,38,1,7573,8,8,8,8,8,12,1,15,1,47,1]

/-- Runs whose form at the start of a title is one character other than their upper case. -/
def titleRuns : Array CaseRun := runs 1 [
  (1,[452,1,2,1,2,1,38,1]),(0,[453,1,2,1,2,1,38,1,3805,43,2,3,3720,8,8,8,8,8,12,1,15,1,47,1]),(-1,[454,1,2,1,2,1,38,1]),
  (8,[8064,8,8,8,8,8]),(9,[8115,1,15,1,47,1])]

end Scriptling.Text
