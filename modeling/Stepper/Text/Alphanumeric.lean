import Stepper.Text.Runs

/-! # Letters and numbers -/

namespace Stepper.Text

/-- The closed ranges of alphabetic and numeric code points that cannot continue a name. -/
def unnamedAlphanumeric : List (Nat × Nat) :=
  ranges 0
   [178, 2, 5, 1, 2, 3, 699, 1, 1657, 6, 376, 6, 120, 3, 133, 7, 217, 7, 17, 9, 433, 10, 1086, 11,
   1139, 10, 2166, 1, 3, 6, 6, 10, 198, 16, 41, 1, 726, 60, 26, 74, 630, 30, 1385, 1, 305, 1, 866,
   4, 138, 10, 30, 8, 1, 15, 32, 10, 39, 15, 30064, 6, 21544, 6, 406, 2, 116, 1, 1, 1, 1, 1, 1, 1,
   1, 1, 1, 1, 1, 1, 1, 1, 648, 45, 65, 4, 17, 2, 341, 27, 36, 4, 1332, 8, 25, 7, 39, 9, 75, 5, 22,
   6, 160, 2, 2, 16, 2, 46, 64, 9, 52, 2, 30, 3, 75, 5, 104, 8, 24, 8, 41, 7, 330, 6, 352, 31, 158,
   10, 42, 4, 112, 7, 134, 20, 379, 20, 1349, 2, 430, 9, 871, 19, 851, 21, 19334, 7, 798, 23, 25641,
   20, 12, 20, 108, 25, 5454, 9, 929, 59, 1, 3, 1, 4, 76, 45, 1, 15, 962, 13, 35, 26, 6, 26, 6, 26]

/-- The closed ranges of code points that can continue a name and are not alphabetic or numeric. -/
def namedOther : List (Nat × Nat) :=
  ranges 0
   [183, 1, 584, 69, 1, 29, 36, 1, 251, 5, 208, 1, 56, 31, 24, 1, 143, 1, 134, 2, 9, 3, 83, 11, 160,
   9, 9, 1, 26, 2, 19, 1, 43, 3, 60, 8, 42, 10, 12, 2, 8, 6, 76, 1, 16, 1, 3, 4, 103, 1, 16, 1, 48,
   1, 61, 1, 16, 1, 110, 1, 16, 1, 47, 3, 60, 1, 16, 1, 5, 3, 119, 1, 110, 1, 16, 1, 110, 1, 16, 1,
   109, 2, 16, 1, 124, 1, 124, 6, 1, 1, 107, 1, 13, 5, 1, 1, 73, 2, 27, 1, 1, 1, 1, 1, 4, 2, 68, 1,
   1, 2, 62, 1, 112, 1, 1, 2, 802, 3, 948, 2, 30, 1, 127, 2, 19, 11, 9, 1, 45, 3, 1, 1, 297, 3, 292,
   1, 20, 8, 2, 1, 48, 14, 3, 11, 3, 16, 1, 13, 71, 1, 15, 1, 38, 9, 54, 2, 58, 1, 11, 2, 67, 1,
   152, 3, 1, 21, 4, 1, 6, 1, 2, 3, 198, 19, 34, 11, 524, 2, 49, 2, 19, 1, 123, 13, 4, 1, 3, 12, 39,
   1, 21, 1, 3008, 3, 141, 1, 682, 6, 105, 2, 96, 1, 30067, 1, 12, 2, 114, 2, 235, 1, 40, 1, 37, 1,
   151, 1, 27, 18, 57, 3, 37, 1, 95, 1, 12, 1, 254, 1, 1, 1, 52, 1, 117, 1, 127, 2, 21010, 16, 16,
   16, 3, 2, 24, 3, 239, 1, 37, 1, 663, 1, 226, 1, 1879, 3, 4, 1, 165, 2, 643, 4, 349, 1, 36, 10, 3,
   3, 70, 11, 49, 4, 192, 1, 41, 1, 14, 1, 57, 2, 120, 2, 62, 1, 76, 1, 8, 4, 104, 2, 178, 2, 80, 2,
   16, 1, 24, 7, 3, 5, 89, 3, 1, 1, 14, 2, 95, 1, 3, 1, 23, 1, 99, 2, 251, 2, 126, 1, 118, 2, 115,
   1, 269, 2, 258, 2, 4, 1, 156, 1, 82, 2, 18, 1, 80, 2, 421, 1, 258, 1, 1, 2, 81, 1, 88, 1, 336, 2,
   23, 1, 1306, 1, 218, 311, 3513, 1, 6, 15, 11481, 1, 2496, 5, 59, 7, 585, 30, 2, 10, 570, 1, 7707,
   914, 11019, 1, 4706, 46, 2, 23, 480, 1, 61, 5, 3, 6, 8, 8, 2, 7, 30, 4, 148, 3, 11, 1, 47, 1,
   1919, 55, 4, 50, 8, 1, 14, 1, 22, 5, 1, 15, 1664, 7, 375, 1, 61, 4, 508, 4, 254, 2, 736, 7, 109,
   3, 1, 3, 52947, 1, 71649, 11328, 656576, 240]

end Stepper.Text
