import ChipEight.Text.Lowercase
/-!
Upper case over all of Unicode.  The upper form of most letters is the capital whose lower form they
are; a few share the capital of another letter, and some have several characters for it.  A letter
that is not the lower form of its own capital is lost on the way there and back.
-/

namespace ChipEight.Text

/-- Letters whose upper form is a capital with another lower form. -/
def sharedCapitals : List (Nat × Nat) := [
  (181, 924), (305, 73), (383, 83), (453, 452), (456, 455), (459, 458), (498, 497), (837, 921),
  (962, 931), (976, 914), (977, 920), (981, 934), (982, 928), (1008, 922), (1009, 929), (1013, 917),
  (7296, 1042), (7297, 1044), (7298, 1054), (7299, 1057), (7300, 1058), (7301, 1058), (7302, 1066),
  (7303, 1122), (7304, 42570), (7835, 7776), (8126, 921)]

/-- Letters whose upper form has several characters. -/
def wideCapitals : List (Nat × List Nat) := [
  (223, [83, 83]), (329, [700, 78]), (496, [74, 780]), (912, [921, 776, 769]),
  (944, [933, 776, 769]), (1415, [1333, 1362]), (7830, [72, 817]), (7831, [84, 776]),
  (7832, [87, 778]), (7833, [89, 778]), (7834, [65, 702]), (8016, [933, 787]),
  (8018, [933, 787, 768]), (8020, [933, 787, 769]), (8022, [933, 787, 834]), (8114, [8122, 921]),
  (8115, [913, 921]), (8116, [902, 921]), (8118, [913, 834]), (8119, [913, 834, 921]),
  (8124, [913, 921]), (8130, [8138, 921]), (8131, [919, 921]), (8132, [905, 921]),
  (8134, [919, 834]), (8135, [919, 834, 921]), (8140, [919, 921]), (8146, [921, 776, 768]),
  (8147, [921, 776, 769]), (8150, [921, 834]), (8151, [921, 776, 834]), (8162, [933, 776, 768]),
  (8163, [933, 776, 769]), (8164, [929, 787]), (8166, [933, 834]), (8167, [933, 776, 834]),
  (8178, [8186, 921]), (8179, [937, 921]), (8180, [911, 921]), (8182, [937, 834]),
  (8183, [937, 834, 921]), (8188, [937, 921]), (64256, [70, 70]), (64257, [70, 73]),
  (64258, [70, 76]), (64259, [70, 70, 73]), (64260, [70, 70, 76]), (64261, [83, 84]),
  (64262, [83, 84]), (64275, [1348, 1350]), (64276, [1348, 1333]), (64277, [1348, 1339]),
  (64278, [1358, 1350]), (64279, [1348, 1341])]

/-- Runs `(first, capital)` of eight letters that have an iota below them, and in upper case behind
their capitals. -/
def iotaRuns : List (Nat × Nat) := [
  (8064, 7944), (8072, 7944), (8080, 7976), (8088, 7976), (8096, 8040), (8104, 8040)]

/-- The capital whose lower form is a code point. -/
def capitalOf? (n : Nat) : Option Nat :=
  let capital (distance : Int) : Int := n - distance
  let inRun : Nat × Nat × Nat × Int → Bool
    | (first, last, step, distance) =>
      first ≤ capital distance && capital distance ≤ last &&
        (capital distance - first) % step == 0
  (lowercaseRuns.find? inRun).map fun (_, _, _, distance) => (capital distance).toNat

/-- The upper form of a code point from 128 up. -/
def upperForm (n : Nat) : List Nat :=
  match wideCapitals.lookup n, iotaRuns.find? fun (first, _) => first ≤ n && n < first + 8 with
  | some form, _ => form
  | none, some (first, capital) => [capital + (n - first), 921]
  | none, none => [((sharedCapitals.lookup n).orElse fun _ => capitalOf? n).getD n]

def upperChar (c : Char) : List Char :=
  if c.toNat < 128 then [c.toUpper] else (upperForm c.toNat).map Char.ofNat

def upper (s : String) : String := String.ofList (s.toList.flatMap upperChar)

end ChipEight.Text
