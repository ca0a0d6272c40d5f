import Gateway.Lib.Text

/-!
# Case folding

`str.casefold`: the full case folding of Unicode, one character after the other. Most
characters that fold do so to one character, in stretches at a fixed distance; the others
have an expansion of two or three characters.

## Key results

- `foldChar_ascii`: an ASCII character folds to its lower case
- `mem_foldChar`: what a character beyond ASCII folds to
- `casefold_eq_iff`: which texts fold to an ASCII word
-/

namespace Text

/-! ## The tables -/

/-- Every `step`-th character from `first` to `last` folds to the one `offset` places on. -/
structure FoldRange where
  first : Nat
  last : Nat
  step : Nat
  offset : Int

/-- The characters that fold to one character. -/
def foldRanges : List FoldRange :=
  [⟨0x41, 0x5a, 1, 32⟩, ⟨0xb5, 0xb5, 1, 775⟩, ⟨0xc0, 0xd6, 1, 32⟩, ⟨0xd8, 0xde, 1, 32⟩,
    ⟨0x100, 0x12e, 2, 1⟩, ⟨0x132, 0x136, 2, 1⟩, ⟨0x139, 0x147, 2, 1⟩, ⟨0x14a, 0x176, 2, 1⟩,
    ⟨0x178, 0x178, 1, -121⟩, ⟨0x179, 0x17d, 2, 1⟩, ⟨0x17f, 0x17f, 1, -268⟩, ⟨0x181, 0x181, 1, 210⟩,
    ⟨0x182, 0x184, 2, 1⟩, ⟨0x186, 0x186, 1, 206⟩, ⟨0x187, 0x187, 1, 1⟩, ⟨0x189, 0x18a, 1, 205⟩,
    ⟨0x18b, 0x18b, 1, 1⟩, ⟨0x18e, 0x18e, 1, 79⟩, ⟨0x18f, 0x18f, 1, 202⟩, ⟨0x190, 0x190, 1, 203⟩,
    ⟨0x191, 0x191, 1, 1⟩, ⟨0x193, 0x193, 1, 205⟩, ⟨0x194, 0x194, 1, 207⟩, ⟨0x196, 0x196, 1, 211⟩,
    ⟨0x197, 0x197, 1, 209⟩, ⟨0x198, 0x198, 1, 1⟩, ⟨0x19c, 0x19c, 1, 211⟩, ⟨0x19d, 0x19d, 1, 213⟩,
    ⟨0x19f, 0x19f, 1, 214⟩, ⟨0x1a0, 0x1a4, 2, 1⟩, ⟨0x1a6, 0x1a6, 1, 218⟩, ⟨0x1a7, 0x1a7, 1, 1⟩,
    ⟨0x1a9, 0x1a9, 1, 218⟩, ⟨0x1ac, 0x1ac, 1, 1⟩, ⟨0x1ae, 0x1ae, 1, 218⟩, ⟨0x1af, 0x1af, 1, 1⟩,
    ⟨0x1b1, 0x1b2, 1, 217⟩, ⟨0x1b3, 0x1b5, 2, 1⟩, ⟨0x1b7, 0x1b7, 1, 219⟩, ⟨0x1b8, 0x1b8, 1, 1⟩,
    ⟨0x1bc, 0x1bc, 1, 1⟩, ⟨0x1c4, 0x1c4, 1, 2⟩, ⟨0x1c5, 0x1c5, 1, 1⟩, ⟨0x1c7, 0x1c7, 1, 2⟩,
    ⟨0x1c8, 0x1c8, 1, 1⟩, ⟨0x1ca, 0x1ca, 1, 2⟩, ⟨0x1cb, 0x1db, 2, 1⟩, ⟨0x1de, 0x1ee, 2, 1⟩,
    ⟨0x1f1, 0x1f1, 1, 2⟩, ⟨0x1f2, 0x1f4, 2, 1⟩, ⟨0x1f6, 0x1f6, 1, -97⟩, ⟨0x1f7, 0x1f7, 1, -56⟩,
    ⟨0x1f8, 0x21e, 2, 1⟩, ⟨0x220, 0x220, 1, -130⟩, ⟨0x222, 0x232, 2, 1⟩, ⟨0x23a, 0x23a, 1, 10795⟩,
    ⟨0x23b, 0x23b, 1, 1⟩, ⟨0x23d, 0x23d, 1, -163⟩, ⟨0x23e, 0x23e, 1, 10792⟩, ⟨0x241, 0x241, 1, 1⟩,
    ⟨0x243, 0x243, 1, -195⟩, ⟨0x244, 0x244, 1, 69⟩, ⟨0x245, 0x245, 1, 71⟩, ⟨0x246, 0x24e, 2, 1⟩,
    ⟨0x345, 0x345, 1, 116⟩, ⟨0x370, 0x372, 2, 1⟩, ⟨0x376, 0x376, 1, 1⟩, ⟨0x37f, 0x37f, 1, 116⟩,
    ⟨0x386, 0x386, 1, 38⟩, ⟨0x388, 0x38a, 1, 37⟩, ⟨0x38c, 0x38c, 1, 64⟩, ⟨0x38e, 0x38f, 1, 63⟩,
    ⟨0x391, 0x3a1, 1, 32⟩, ⟨0x3a3, 0x3ab, 1, 32⟩, ⟨0x3c2, 0x3c2, 1, 1⟩, ⟨0x3cf, 0x3cf, 1, 8⟩,
    ⟨0x3d0, 0x3d0, 1, -30⟩, ⟨0x3d1, 0x3d1, 1, -25⟩, ⟨0x3d5, 0x3d5, 1, -15⟩, ⟨0x3d6, 0x3d6, 1, -22⟩,
    ⟨0x3d8, 0x3ee, 2, 1⟩, ⟨0x3f0, 0x3f0, 1, -54⟩, ⟨0x3f1, 0x3f1, 1, -48⟩, ⟨0x3f4, 0x3f4, 1, -60⟩,
    ⟨0x3f5, 0x3f5, 1, -64⟩, ⟨0x3f7, 0x3f7, 1, 1⟩, ⟨0x3f9, 0x3f9, 1, -7⟩, ⟨0x3fa, 0x3fa, 1, 1⟩,
    ⟨0x3fd, 0x3ff, 1, -130⟩, ⟨0x400, 0x40f, 1, 80⟩, ⟨0x410, 0x42f, 1, 32⟩, ⟨0x460, 0x480, 2, 1⟩,
    ⟨0x48a, 0x4be, 2, 1⟩, ⟨0x4c0, 0x4c0, 1, 15⟩, ⟨0x4c1, 0x4cd, 2, 1⟩, ⟨0x4d0, 0x52e, 2, 1⟩,
    ⟨0x531, 0x556, 1, 48⟩, ⟨0x10a0, 0x10c5, 1, 7264⟩, ⟨0x10c7, 0x10c7, 1, 7264⟩,
    ⟨0x10cd, 0x10cd, 1, 7264⟩, ⟨0x13f8, 0x13fd, 1, -8⟩, ⟨0x1c80, 0x1c80, 1, -6222⟩,
    ⟨0x1c81, 0x1c81, 1, -6221⟩, ⟨0x1c82, 0x1c82, 1, -6212⟩, ⟨0x1c83, 0x1c84, 1, -6210⟩,
    ⟨0x1c85, 0x1c85, 1, -6211⟩, ⟨0x1c86, 0x1c86, 1, -6204⟩, ⟨0x1c87, 0x1c87, 1, -6180⟩,
    ⟨0x1c88, 0x1c88, 1, 35267⟩, ⟨0x1c90, 0x1cba, 1, -3008⟩, ⟨0x1cbd, 0x1cbf, 1, -3008⟩,
    ⟨0x1e00, 0x1e94, 2, 1⟩, ⟨0x1e9b, 0x1e9b, 1, -58⟩, ⟨0x1ea0, 0x1efe, 2, 1⟩,
    ⟨0x1f08, 0x1f0f, 1, -8⟩, ⟨0x1f18, 0x1f1d, 1, -8⟩, ⟨0x1f28, 0x1f2f, 1, -8⟩,
    ⟨0x1f38, 0x1f3f, 1, -8⟩, ⟨0x1f48, 0x1f4d, 1, -8⟩, ⟨0x1f59, 0x1f5f, 2, -8⟩,
    ⟨0x1f68, 0x1f6f, 1, -8⟩, ⟨0x1fb8, 0x1fb9, 1, -8⟩, ⟨0x1fba, 0x1fbb, 1, -74⟩,
    ⟨0x1fbe, 0x1fbe, 1, -7173⟩, ⟨0x1fc8, 0x1fcb, 1, -86⟩, ⟨0x1fd8, 0x1fd9, 1, -8⟩,
    ⟨0x1fda, 0x1fdb, 1, -100⟩, ⟨0x1fe8, 0x1fe9, 1, -8⟩, ⟨0x1fea, 0x1feb, 1, -112⟩,
    ⟨0x1fec, 0x1fec, 1, -7⟩, ⟨0x1ff8, 0x1ff9, 1, -128⟩, ⟨0x1ffa, 0x1ffb, 1, -126⟩,
    ⟨0x2126, 0x2126, 1, -7517⟩, ⟨0x212a, 0x212a, 1, -8383⟩, ⟨0x212b, 0x212b, 1, -8262⟩,
    ⟨0x2132, 0x2132, 1, 28⟩, ⟨0x2160, 0x216f, 1, 16⟩, ⟨0x2183, 0x2183, 1, 1⟩,
    ⟨0x24b6, 0x24cf, 1, 26⟩, ⟨0x2c00, 0x2c2f, 1, 48⟩, ⟨0x2c60, 0x2c60, 1, 1⟩,
    ⟨0x2c62, 0x2c62, 1, -10743⟩, ⟨0x2c63, 0x2c63, 1, -3814⟩, ⟨0x2c64, 0x2c64, 1, -10727⟩,
    ⟨0x2c67, 0x2c6b, 2, 1⟩, ⟨0x2c6d, 0x2c6d, 1, -10780⟩, ⟨0x2c6e, 0x2c6e, 1, -10749⟩,
    ⟨0x2c6f, 0x2c6f, 1, -10783⟩, ⟨0x2c70, 0x2c70, 1, -10782⟩, ⟨0x2c72, 0x2c72, 1, 1⟩,
    ⟨0x2c75, 0x2c75, 1, 1⟩, ⟨0x2c7e, 0x2c7f, 1, -10815⟩, ⟨0x2c80, 0x2ce2, 2, 1⟩,
    ⟨0x2ceb, 0x2ced, 2, 1⟩, ⟨0x2cf2, 0x2cf2, 1, 1⟩, ⟨0xa640, 0xa66c, 2, 1⟩, ⟨0xa680, 0xa69a, 2, 1⟩,
    ⟨0xa722, 0xa72e, 2, 1⟩, ⟨0xa732, 0xa76e, 2, 1⟩, ⟨0xa779, 0xa77b, 2, 1⟩,
    ⟨0xa77d, 0xa77d, 1, -35332⟩, ⟨0xa77e, 0xa786, 2, 1⟩, ⟨0xa78b, 0xa78b, 1, 1⟩,
    ⟨0xa78d, 0xa78d, 1, -42280⟩, ⟨0xa790, 0xa792, 2, 1⟩, ⟨0xa796, 0xa7a8, 2, 1⟩,
    ⟨0xa7aa, 0xa7aa, 1, -42308⟩, ⟨0xa7ab, 0xa7ab, 1, -42319⟩, ⟨0xa7ac, 0xa7ac, 1, -42315⟩,
    ⟨0xa7ad, 0xa7ad, 1, -42305⟩, ⟨0xa7ae, 0xa7ae, 1, -42308⟩, ⟨0xa7b0, 0xa7b0, 1, -42258⟩,
    ⟨0xa7b1, 0xa7b1, 1, -42282⟩, ⟨0xa7b2, 0xa7b2, 1, -42261⟩, ⟨0xa7b3, 0xa7b3, 1, 928⟩,
    ⟨0xa7b4, 0xa7c2, 2, 1⟩, ⟨0xa7c4, 0xa7c4, 1, -48⟩, ⟨0xa7c5, 0xa7c5, 1, -42307⟩,
    ⟨0xa7c6, 0xa7c6, 1, -35384⟩, ⟨0xa7c7, 0xa7c9, 2, 1⟩, ⟨0xa7d0, 0xa7d0, 1, 1⟩,
    ⟨0xa7d6, 0xa7d8, 2, 1⟩, ⟨0xa7f5, 0xa7f5, 1, 1⟩, ⟨0xab70, 0xabbf, 1, -38864⟩,
    ⟨0xff21, 0xff3a, 1, 32⟩, ⟨0x10400, 0x10427, 1, 40⟩, ⟨0x104b0, 0x104d3, 1, 40⟩,
    ⟨0x10570, 0x1057a, 1, 39⟩, ⟨0x1057c, 0x1058a, 1, 39⟩, ⟨0x1058c, 0x10592, 1, 39⟩,
    ⟨0x10594, 0x10595, 1, 39⟩, ⟨0x10c80, 0x10cb2, 1, 64⟩, ⟨0x118a0, 0x118bf, 1, 32⟩,
    ⟨0x16e40, 0x16e5f, 1, 32⟩, ⟨0x1e900, 0x1e921, 1, 34⟩]

/-- The characters that fold to several. -/
def foldExpansions : List (Nat × List Nat) :=
  [(0xdf, [0x73, 0x73]), (0x130, [0x69, 0x307]), (0x149, [0x2bc, 0x6e]), (0x1f0, [0x6a, 0x30c]),
    (0x390, [0x3b9, 0x308, 0x301]), (0x3b0, [0x3c5, 0x308, 0x301]), (0x587, [0x565, 0x582]),
    (0x1e96, [0x68, 0x331]), (0x1e97, [0x74, 0x308]), (0x1e98, [0x77, 0x30a]),
    (0x1e99, [0x79, 0x30a]), (0x1e9a, [0x61, 0x2be]), (0x1e9e, [0x73, 0x73]),
    (0x1f50, [0x3c5, 0x313]), (0x1f52, [0x3c5, 0x313, 0x300]), (0x1f54, [0x3c5, 0x313, 0x301]),
    (0x1f56, [0x3c5, 0x313, 0x342]), (0x1f80, [0x1f00, 0x3b9]), (0x1f81, [0x1f01, 0x3b9]),
    (0x1f82, [0x1f02, 0x3b9]), (0x1f83, [0x1f03, 0x3b9]), (0x1f84, [0x1f04, 0x3b9]),
    (0x1f85, [0x1f05, 0x3b9]), (0x1f86, [0x1f06, 0x3b9]), (0x1f87, [0x1f07, 0x3b9]),
    (0x1f88, [0x1f00, 0x3b9]), (0x1f89, [0x1f01, 0x3b9]), (0x1f8a, [0x1f02, 0x3b9]),
    (0x1f8b, [0x1f03, 0x3b9]), (0x1f8c, [0x1f04, 0x3b9]), (0x1f8d, [0x1f05, 0x3b9]),
    (0x1f8e, [0x1f06, 0x3b9]), (0x1f8f, [0x1f07, 0x3b9]), (0x1f90, [0x1f20, 0x3b9]),
    (0x1f91, [0x1f21, 0x3b9]), (0x1f92, [0x1f22, 0x3b9]), (0x1f93, [0x1f23, 0x3b9]),
    (0x1f94, [0x1f24, 0x3b9]), (0x1f95, [0x1f25, 0x3b9]), (0x1f96, [0x1f26, 0x3b9]),
    (0x1f97, [0x1f27, 0x3b9]), (0x1f98, [0x1f20, 0x3b9]), (0x1f99, [0x1f21, 0x3b9]),
    (0x1f9a, [0x1f22, 0x3b9]), (0x1f9b, [0x1f23, 0x3b9]), (0x1f9c, [0x1f24, 0x3b9]),
    (0x1f9d, [0x1f25, 0x3b9]), (0x1f9e, [0x1f26, 0x3b9]), (0x1f9f, [0x1f27, 0x3b9]),
    (0x1fa0, [0x1f60, 0x3b9]), (0x1fa1, [0x1f61, 0x3b9]), (0x1fa2, [0x1f62, 0x3b9]),
    (0x1fa3, [0x1f63, 0x3b9]), (0x1fa4, [0x1f64, 0x3b9]), (0x1fa5, [0x1f65, 0x3b9]),
    (0x1fa6, [0x1f66, 0x3b9]), (0x1fa7, [0x1f67, 0x3b9]), (0x1fa8, [0x1f60, 0x3b9]),
    (0x1fa9, [0x1f61, 0x3b9]), (0x1faa, [0x1f62, 0x3b9]), (0x1fab, [0x1f63, 0x3b9]),
    (0x1fac, [0x1f64, 0x3b9]), (0x1fad, [0x1f65, 0x3b9]), (0x1fae, [0x1f66, 0x3b9]),
    (0x1faf, [0x1f67, 0x3b9]), (0x1fb2, [0x1f70, 0x3b9]), (0x1fb3, [0x3b1, 0x3b9]),
    (0x1fb4, [0x3ac, 0x3b9]), (0x1fb6, [0x3b1, 0x342]), (0x1fb7, [0x3b1, 0x342, 0x3b9]),
    (0x1fbc, [0x3b1, 0x3b9]), (0x1fc2, [0x1f74, 0x3b9]), (0x1fc3, [0x3b7, 0x3b9]),
    (0x1fc4, [0x3ae, 0x3b9]), (0x1fc6, [0x3b7, 0x342]), (0x1fc7, [0x3b7, 0x342, 0x3b9]),
    (0x1fcc, [0x3b7, 0x3b9]), (0x1fd2, [0x3b9, 0x308, 0x300]), (0x1fd3, [0x3b9, 0x308, 0x301]),
    (0x1fd6, [0x3b9, 0x342]), (0x1fd7, [0x3b9, 0x308, 0x342]), (0x1fe2, [0x3c5, 0x308, 0x300]),
    (0x1fe3, [0x3c5, 0x308, 0x301]), (0x1fe4, [0x3c1, 0x313]), (0x1fe6, [0x3c5, 0x342]),
    (0x1fe7, [0x3c5, 0x308, 0x342]), (0x1ff2, [0x1f7c, 0x3b9]), (0x1ff3, [0x3c9, 0x3b9]),
    (0x1ff4, [0x3ce, 0x3b9]), (0x1ff6, [0x3c9, 0x342]), (0x1ff7, [0x3c9, 0x342, 0x3b9]),
    (0x1ffc, [0x3c9, 0x3b9]), (0xfb00, [0x66, 0x66]), (0xfb01, [0x66, 0x69]),
    (0xfb02, [0x66, 0x6c]), (0xfb03, [0x66, 0x66, 0x69]), (0xfb04, [0x66, 0x66, 0x6c]),
    (0xfb05, [0x73, 0x74]), (0xfb06, [0x73, 0x74]), (0xfb13, [0x574, 0x576]),
    (0xfb14, [0x574, 0x565]), (0xfb15, [0x574, 0x56b]), (0xfb16, [0x57e, 0x576]),
    (0xfb17, [0x574, 0x56d])]

/-! ## Folding -/

/-- The stretch has the character of this code point. -/
def FoldRange.covers (r : FoldRange) (n : Nat) : Bool :=
  r.first ≤ n && n ≤ r.last && (n - r.first) % r.step = 0

/-- The code point that a stretch folds one of its code points to. -/
def FoldRange.image (r : FoldRange) (n : Nat) : Nat := (n + r.offset).toNat

/-- What one character folds to. -/
def foldChar (c : Char) : Text :=
  match foldExpansions.find? (·.1 = c.toNat) with
  | some e => e.2.map Char.ofNat
  | none =>
    match foldRanges.find? (·.covers c.toNat) with
    | some r => [Char.ofNat (r.image c.toNat)]
    | none => [c]

/-- `str.casefold`. -/
def casefold (t : Text) : Text := t.flatMap foldChar

/-! ## ASCII words -/

/-- An ASCII character that a character beyond ASCII does not fold to. The expansions that are
    all ASCII, such as `ss` and `fi`, have an `f` or an `s`, and `k` is what the kelvin sign
    folds to. -/
def isOwnFold (c : Char) : Bool := c.toNat < 128 && c ≠ 'f' && c ≠ 'k' && c ≠ 's'

/-- No character that the stretch covers folds to an `isOwnFold` one. -/
private def FoldRange.leavesOwn (r : FoldRange) : Bool :=
  if r.first = r.last then !isOwnFold (Char.ofNat (r.image r.first))
  else
    128 ≤ r.first + r.offset &&
      (r.last + r.offset < 0xd800 || (0xdfff < r.first + r.offset && r.last + r.offset < 0x110000))

private theorem expansions_leave_own :
    (foldExpansions.all fun e => 128 ≤ e.1 && (e.2.map Char.ofNat).any (!isOwnFold ·)) = true := by
  decide

private theorem ranges_leave_own :
    (foldRanges.tail.all fun r => 128 ≤ r.first && r.leavesOwn) = true := by
  decide

private theorem find_expansion {n : Nat} (h : n < 128) :
    foldExpansions.find? (·.1 = n) = none := by
  rw [List.find?_eq_none]
  intro e he
  have hchecked := List.all_eq_true.mp expansions_leave_own e he
  simp only [Bool.and_eq_true, decide_eq_true_eq] at hchecked ⊢
  omega

private theorem find_range_tail {n : Nat} (h : n < 128) :
    foldRanges.tail.find? (·.covers n) = none := by
  rw [List.find?_eq_none]
  intro r hr
  have hchecked := List.all_eq_true.mp ranges_leave_own r hr
  simp only [FoldRange.covers, Bool.and_eq_true, decide_eq_true_eq] at hchecked ⊢
  omega

private theorem toLower_codes :
    ((List.range 128).all fun n => (Char.ofNat n).toLower =
      if 65 ≤ n && n ≤ 90 then Char.ofNat (n + 32) else Char.ofNat n) = true := by
  decide

/-- An ASCII character folds to its lower case. -/
theorem foldChar_ascii {c : Char} (h : c.toNat < 128) : foldChar c = [c.toLower] := by
  have hlower := List.all_eq_true.mp toLower_codes c.toNat (List.mem_range.mpr h)
  have hranges : foldRanges = ⟨65, 90, 1, 32⟩ :: foldRanges.tail := rfl
  rw [Char.ofNat_toNat, decide_eq_true_eq] at hlower
  rw [foldChar, find_expansion h, hranges, List.find?_cons, find_range_tail h, hlower]
  -- only the first stretch begins within ASCII
  by_cases hupper : (65 ≤ c.toNat && c.toNat ≤ 90) = true
  · have hcovers : FoldRange.covers ⟨65, 90, 1, 32⟩ c.toNat = true := by
      simpa [FoldRange.covers, Nat.mod_one] using hupper
    rw [hcovers, if_pos hupper]
    rfl
  · have hcovers : FoldRange.covers ⟨65, 90, 1, 32⟩ c.toNat = false := by
      simpa [FoldRange.covers, Nat.mod_one] using hupper
    rw [hcovers, if_neg hupper]

private theorem isOwnFold_image {r : FoldRange} {n : Nat} (hr : r.leavesOwn = true)
    (hn : r.covers n = true) : isOwnFold (Char.ofNat (r.image n)) = false := by
  have hcovers : r.first ≤ n ∧ n ≤ r.last := by
    simp only [FoldRange.covers, Bool.and_eq_true, decide_eq_true_eq] at hn
    exact hn.1
  unfold FoldRange.leavesOwn at hr
  split at hr
  · next hone =>
    have hsame : n = r.first := by omega
    rw [hsame]
    simpa using hr
  · simp only [Bool.and_eq_true, Bool.or_eq_true, decide_eq_true_eq] at hr
    have himage : (r.image n : Int) = n + r.offset := by
      unfold FoldRange.image
      omega
    have hvalid : (r.image n).isValidChar := by
      unfold Nat.isValidChar
      omega
    have hcode : (Char.ofNat (r.image n)).toNat = r.image n := by
      rw [Char.ofNat, dif_pos hvalid]
      rfl
    have hbeyond : ¬(r.image n < 128) := by omega
    simp [isOwnFold, hcode, hbeyond]

/-- What a character beyond ASCII folds to has a character that is not its own fold. -/
theorem mem_foldChar {c : Char} (h : 128 ≤ c.toNat) : ∃ d ∈ foldChar c, isOwnFold d = false := by
  unfold foldChar
  split
  · next e he =>
    have hchecked := List.all_eq_true.mp expansions_leave_own e (List.mem_of_find?_eq_some he)
    simp only [Bool.and_eq_true, List.any_eq_true, Bool.not_eq_true'] at hchecked
    exact hchecked.2
  · split
    · next r hr =>
      have hcovers := List.find?_some hr
      have hmem : r ∈ foldRanges.tail := by
        rcases List.mem_cons.mp (List.mem_of_find?_eq_some hr) with rfl | hmem
        · simp only [FoldRange.covers, Bool.and_eq_true, decide_eq_true_eq] at hcovers
          omega
        · exact hmem
      have hleaves := (Bool.and_eq_true_iff.mp (List.all_eq_true.mp ranges_leave_own r hmem)).2
      exact ⟨_, List.mem_singleton_self _, isOwnFold_image hleaves hcovers⟩
    · refine ⟨c, List.mem_singleton_self c, ?_⟩
      have hbeyond : ¬(c.toNat < 128) := by omega
      simp [isOwnFold, hbeyond]

/-- An ASCII text folds to its lower case. -/
theorem casefold_ascii {t : Text} (h : ∀ c ∈ t, c.toNat < 128) :
    casefold t = t.map Char.toLower := by
  induction t with
  | nil => rfl
  | cons c t ih =>
    have hc := foldChar_ascii (h c (List.mem_cons_self ..))
    have hrest := ih fun d hd => h d (List.mem_cons_of_mem _ hd)
    unfold casefold at hrest ⊢
    rw [List.flatMap_cons, hc, hrest, List.map_cons, List.singleton_append]

theorem toLower_beyond {c : Char} (h : 128 ≤ c.toNat) : c.toLower = c := by
  have hcode : 128 ≤ c.val.toNat := h
  unfold Char.toLower
  split
  · next hupper =>
    have hle : c.val.toNat ≤ 90 := by simpa [UInt32.le_iff_toNat_le] using hupper.2
    omega
  · rfl

/-- The texts that fold to an ASCII word are its spellings in either case, if all its
    characters are their own folds. -/
theorem casefold_eq_iff {w : Text} (hw : ∀ c ∈ w, isOwnFold c = true) (t : Text) :
    casefold t = w ↔ t.map Char.toLower = w := by
  have hascii : (casefold t = w ∨ t.map Char.toLower = w) → ∀ c ∈ t, c.toNat < 128 := by
    intro h c hc
    by_contra hbeyond
    rcases h with h | h
    · -- the character's folding would be part of `w`
      obtain ⟨d, hd, hown⟩ := mem_foldChar (show 128 ≤ c.toNat by omega)
      have hmem : d ∈ w := h ▸ List.mem_flatMap.mpr ⟨c, hc, hd⟩
      simp [hw d hmem] at hown
    · have hmem : c.toLower ∈ w := h ▸ List.mem_map_of_mem hc
      rw [toLower_beyond (by omega)] at hmem
      have hown := hw c hmem
      simp only [isOwnFold, Bool.and_eq_true, decide_eq_true_eq] at hown
      omega
  constructor
  · intro h
    rw [← casefold_ascii (hascii (.inl h)), h]
  · intro h
    rw [casefold_ascii (hascii (.inr h)), h]

end Text
