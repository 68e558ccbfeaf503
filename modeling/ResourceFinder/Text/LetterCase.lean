import ResourceFinder.Text.Basic

/-
Letters that differ in case alone.  A capital letter has one small letter; some small letters that
share a capital letter count as the same letter too.
-/

namespace ResourceFinder
namespace CodePoint

/-- Runs of letters with small letters other than themselves: the first letter, how many follow at
the given step, the step, and the small letter of the first. -/
def smallLetterRuns : List (Nat × Nat × Nat × Nat) := [
  (0x41, 26, 1, 0x61), (0xc0, 23, 1, 0xe0), (0xd8, 7, 1, 0xf8), (0x100, 24, 2, 0x101),
  (0x130, 1, 1, 0x69), (0x132, 3, 2, 0x133), (0x139, 8, 2, 0x13a), (0x14a, 23, 2, 0x14b),
  (0x178, 1, 1, 0xff), (0x179, 3, 2, 0x17a), (0x181, 1, 1, 0x253), (0x182, 2, 2, 0x183),
  (0x186, 1, 1, 0x254), (0x187, 1, 1, 0x188), (0x189, 2, 1, 0x256), (0x18b, 1, 1, 0x18c),
  (0x18e, 1, 1, 0x1dd), (0x18f, 1, 1, 0x259), (0x190, 1, 1, 0x25b), (0x191, 1, 1, 0x192),
  (0x193, 1, 1, 0x260), (0x194, 1, 1, 0x263), (0x196, 1, 1, 0x269), (0x197, 1, 1, 0x268),
  (0x198, 1, 1, 0x199), (0x19c, 1, 1, 0x26f), (0x19d, 1, 1, 0x272), (0x19f, 1, 1, 0x275),
  (0x1a0, 3, 2, 0x1a1), (0x1a6, 1, 1, 0x280), (0x1a7, 1, 1, 0x1a8), (0x1a9, 1, 1, 0x283),
  (0x1ac, 1, 1, 0x1ad), (0x1ae, 1, 1, 0x288), (0x1af, 1, 1, 0x1b0), (0x1b1, 2, 1, 0x28a),
  (0x1b3, 2, 2, 0x1b4), (0x1b7, 1, 1, 0x292), (0x1b8, 1, 1, 0x1b9), (0x1bc, 1, 1, 0x1bd),
  (0x1c4, 1, 1, 0x1c6), (0x1c5, 1, 1, 0x1c6), (0x1c7, 1, 1, 0x1c9), (0x1c8, 1, 1, 0x1c9),
  (0x1ca, 1, 1, 0x1cc), (0x1cb, 9, 2, 0x1cc), (0x1de, 9, 2, 0x1df), (0x1f1, 1, 1, 0x1f3),
  (0x1f2, 2, 2, 0x1f3), (0x1f6, 1, 1, 0x195), (0x1f7, 1, 1, 0x1bf), (0x1f8, 20, 2, 0x1f9),
  (0x220, 1, 1, 0x19e), (0x222, 9, 2, 0x223), (0x23a, 1, 1, 0x2c65), (0x23b, 1, 1, 0x23c),
  (0x23d, 1, 1, 0x19a), (0x23e, 1, 1, 0x2c66), (0x241, 1, 1, 0x242), (0x243, 1, 1, 0x180),
  (0x244, 1, 1, 0x289), (0x245, 1, 1, 0x28c), (0x246, 5, 2, 0x247), (0x370, 2, 2, 0x371),
  (0x376, 1, 1, 0x377), (0x37f, 1, 1, 0x3f3), (0x386, 1, 1, 0x3ac), (0x388, 3, 1, 0x3ad),
  (0x38c, 1, 1, 0x3cc), (0x38e, 2, 1, 0x3cd), (0x391, 17, 1, 0x3b1), (0x3a3, 9, 1, 0x3c3),
  (0x3cf, 1, 1, 0x3d7), (0x3d8, 12, 2, 0x3d9), (0x3f4, 1, 1, 0x3b8), (0x3f7, 1, 1, 0x3f8),
  (0x3f9, 1, 1, 0x3f2), (0x3fa, 1, 1, 0x3fb), (0x3fd, 3, 1, 0x37b), (0x400, 16, 1, 0x450),
  (0x410, 32, 1, 0x430), (0x460, 17, 2, 0x461), (0x48a, 27, 2, 0x48b), (0x4c0, 1, 1, 0x4cf),
  (0x4c1, 7, 2, 0x4c2), (0x4d0, 48, 2, 0x4d1), (0x531, 38, 1, 0x561), (0x10a0, 38, 1, 0x2d00),
  (0x10c7, 1, 1, 0x2d27), (0x10cd, 1, 1, 0x2d2d), (0x13a0, 80, 1, 0xab70), (0x13f0, 6, 1, 0x13f8),
  (0x1c90, 43, 1, 0x10d0), (0x1cbd, 3, 1, 0x10fd), (0x1e00, 75, 2, 0x1e01), (0x1e9e, 1, 1, 0xdf),
  (0x1ea0, 48, 2, 0x1ea1), (0x1f08, 8, 1, 0x1f00), (0x1f18, 6, 1, 0x1f10), (0x1f28, 8, 1, 0x1f20),
  (0x1f38, 8, 1, 0x1f30), (0x1f48, 6, 1, 0x1f40), (0x1f59, 4, 2, 0x1f51), (0x1f68, 8, 1, 0x1f60),
  (0x1f88, 8, 1, 0x1f80), (0x1f98, 8, 1, 0x1f90), (0x1fa8, 8, 1, 0x1fa0), (0x1fb8, 2, 1, 0x1fb0),
  (0x1fba, 2, 1, 0x1f70), (0x1fbc, 1, 1, 0x1fb3), (0x1fc8, 4, 1, 0x1f72), (0x1fcc, 1, 1, 0x1fc3),
  (0x1fd8, 2, 1, 0x1fd0), (0x1fda, 2, 1, 0x1f76), (0x1fe8, 2, 1, 0x1fe0), (0x1fea, 2, 1, 0x1f7a),
  (0x1fec, 1, 1, 0x1fe5), (0x1ff8, 2, 1, 0x1f78), (0x1ffa, 2, 1, 0x1f7c), (0x1ffc, 1, 1, 0x1ff3),
  (0x2126, 1, 1, 0x3c9), (0x212a, 1, 1, 0x6b), (0x212b, 1, 1, 0xe5), (0x2132, 1, 1, 0x214e),
  (0x2160, 16, 1, 0x2170), (0x2183, 1, 1, 0x2184), (0x24b6, 26, 1, 0x24d0), (0x2c00, 48, 1, 0x2c30),
  (0x2c60, 1, 1, 0x2c61), (0x2c62, 1, 1, 0x26b), (0x2c63, 1, 1, 0x1d7d), (0x2c64, 1, 1, 0x27d),
  (0x2c67, 3, 2, 0x2c68), (0x2c6d, 1, 1, 0x251), (0x2c6e, 1, 1, 0x271), (0x2c6f, 1, 1, 0x250),
  (0x2c70, 1, 1, 0x252), (0x2c72, 1, 1, 0x2c73), (0x2c75, 1, 1, 0x2c76), (0x2c7e, 2, 1, 0x23f),
  (0x2c80, 50, 2, 0x2c81), (0x2ceb, 2, 2, 0x2cec), (0x2cf2, 1, 1, 0x2cf3), (0xa640, 23, 2, 0xa641),
  (0xa680, 14, 2, 0xa681), (0xa722, 7, 2, 0xa723), (0xa732, 31, 2, 0xa733), (0xa779, 2, 2, 0xa77a),
  (0xa77d, 1, 1, 0x1d79), (0xa77e, 5, 2, 0xa77f), (0xa78b, 1, 1, 0xa78c), (0xa78d, 1, 1, 0x265),
  (0xa790, 2, 2, 0xa791), (0xa796, 10, 2, 0xa797), (0xa7aa, 1, 1, 0x266), (0xa7ab, 1, 1, 0x25c),
  (0xa7ac, 1, 1, 0x261), (0xa7ad, 1, 1, 0x26c), (0xa7ae, 1, 1, 0x26a), (0xa7b0, 1, 1, 0x29e),
  (0xa7b1, 1, 1, 0x287), (0xa7b2, 1, 1, 0x29d), (0xa7b3, 1, 1, 0xab53), (0xa7b4, 8, 2, 0xa7b5),
  (0xa7c4, 1, 1, 0xa794), (0xa7c5, 1, 1, 0x282), (0xa7c6, 1, 1, 0x1d8e), (0xa7c7, 2, 2, 0xa7c8),
  (0xa7d0, 1, 1, 0xa7d1), (0xa7d6, 2, 2, 0xa7d7), (0xa7f5, 1, 1, 0xa7f6), (0xff21, 26, 1, 0xff41),
  (0x10400, 40, 1, 0x10428), (0x104b0, 36, 1, 0x104d8), (0x10570, 1, 2, 0x10597),
  (0x10571, 10, 1, 0x10598), (0x1057c, 15, 1, 0x105a3), (0x1058c, 7, 1, 0x105b3),
  (0x10594, 2, 1, 0x105bb), (0x10c80, 51, 1, 0x10cc0), (0x118a0, 32, 1, 0x118c0),
  (0x16e40, 32, 1, 0x16e60), (0x1e900, 34, 1, 0x1e922)]

/-- Small letters that share a capital letter. -/
def sameLetter : List (List Nat) := [
  [0x69, 0x131], [0x73, 0x17f], [0xb5, 0x3bc], [0x345, 0x3b9, 0x1fbe], [0x390, 0x1fd3],
  [0x3b0, 0x1fe3], [0x3b2, 0x3d0], [0x3b5, 0x3f5], [0x3b8, 0x3d1], [0x3ba, 0x3f0], [0x3c0, 0x3d6],
  [0x3c1, 0x3f1], [0x3c2, 0x3c3], [0x3c6, 0x3d5], [0x432, 0x1c80], [0x434, 0x1c81], [0x43e, 0x1c82],
  [0x441, 0x1c83], [0x442, 0x1c84, 0x1c85], [0x44a, 0x1c86], [0x463, 0x1c87], [0x1c88, 0xa64b],
  [0x1e61, 0x1e9b], [0xfb05, 0xfb06]]

/-- The number of the small letter for a code point, which is its own number without one. -/
def smallLetter (n : Nat) : Nat :=
  match smallLetterRuns.find? fun (first, count, step, _) =>
      first ≤ n && n < first + count * step && (n - first) % step = 0 with
  | some (first, _, _, small) => small + (n - first)
  | none => n

def smallLetters (n : Nat) : List Nat :=
  n :: (sameLetter.filter (·.contains n)).flatten.filter (· ≠ n)

def caseVariants (n : Nat) : List Nat :=
  (smallLetters (smallLetter n)).flatMap fun small =>
    small :: smallLetterRuns.filterMap fun (first, count, step, firstSmall) =>
      if firstSmall ≤ small && small < firstSmall + count * step &&
          (small - firstSmall) % step = 0 then
        some (first + (small - firstSmall))
      else none

end CodePoint
end ResourceFinder
