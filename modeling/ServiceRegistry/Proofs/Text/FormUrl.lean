/-
  Form-urlencoded text reads back as it was written.

  A character is written as UTF-8 bytes, and each byte as itself, a plus sign or a percent sign with
  two digits.  Both steps are undone in turn:

    * `Octets.parts_utf8`   the bytes of a character are read as that character, one lemma for each
                            kind of byte that the reader can meet on the way;
    * `unescape_encode`     the bytes of a written text are its bytes;
    * `decode_encode`       so a written text reads back;
    * `pairs_encode`        and so does a query of one pair, since no separator occurs in what is
                            written (`plain_of_mem_encode`).
-/
import ServiceRegistry.Text.FormUrl
import Mathlib.Data.List.TakeWhile
import Mathlib.Tactic.SplitIfs

namespace ServiceRegistry

namespace Text

/-! ## Characters in UTF-8 -/

namespace Octets

variable {b : UInt8} {bs : List UInt8} {n lo hi seen left value : Nat}

theorem parts_ascii (low : b.toNat < 0x80) :
    parts .between (b :: bs) = .inr (Char.ofNat b.toNat) :: parts .between bs := by
  simp [parts, step, low]

/-- A lead byte opens a character. -/
theorem parts_lead (high : 0x80 ≤ b.toNat) (leads : follow b = some (n, lo, hi)) :
    parts .between (b :: bs) = parts (.inside 1 n lo hi (leadBits n b)) bs := by
  have not_ascii : ¬ b.toNat < 0x80 := Nat.not_lt.2 high
  simp [parts, step, not_ascii, leads]

/-- A byte that is due, with more to come. -/
theorem parts_inner (above : lo ≤ b.toNat) (below : b.toNat ≤ hi) :
    parts (.inside seen (left + 2) lo hi value) (b :: bs)
      = parts (.inside (seen + 1) (left + 1) 0x80 0xBF (value * 64 + b.toNat % 64)) bs := by
  simp [parts, step, within, above, below]

/-- The last byte that is due closes the character. -/
theorem parts_last (above : lo ≤ b.toNat) (below : b.toNat ≤ hi) :
    parts (.inside seen 1 lo hi value) (b :: bs)
      = .inr (Char.ofNat (value * 64 + b.toNat % 64)) :: parts .between bs := by
  simp [parts, step, within, above, below]

/-- No character takes less than a byte. -/
theorem length_le_size (cs : List Char) : cs.length ≤ (ofText cs).size := by
  induction cs with
  | nil => exact Nat.zero_le _
  | cons c cs ih =>
    have hFirst := c.utf8Size_pos
    simp only [ofText, size, List.map_cons, List.foldr_cons, List.length_cons, Option.map_some,
      Option.getD_some] at ih ⊢
    omega

end Octets

/-- Lead bytes of characters of two bytes. -/
theorem follow_two {b : UInt8} (above : 0xC2 ≤ b.toNat) (below : b.toNat ≤ 0xDF) :
    follow b = some (1, 0x80, 0xBF) := by
  simp [follow, within, above, below]

/-- Lead bytes of characters of three bytes; after the first and the one before the surrogates not
    every byte may come. -/
theorem follow_three {b : UInt8} (above : 0xE0 ≤ b.toNat) (below : b.toNat ≤ 0xEF) :
    follow b = some (2, if b.toNat = 0xE0 then 0xA0 else 0x80,
      if b.toNat = 0xED then 0x9F else 0xBF) := by
  simp only [follow, within, Bool.and_eq_true, decide_eq_true_eq]
  split_ifs <;> first | rfl | omega

/-- Lead bytes of characters of four bytes. -/
theorem follow_four {b : UInt8} (above : 0xF0 ≤ b.toNat) (below : b.toNat ≤ 0xF4) :
    follow b = some (3, if b.toNat = 0xF0 then 0x90 else 0x80,
      if b.toNat = 0xF4 then 0x8F else 0xBF) := by
  simp only [follow, within, Bool.and_eq_true, decide_eq_true_eq]
  split_ifs <;> first | rfl | omega

/-- A byte that carries six bits of a character. -/
theorem toNat_due (v : Nat) : (UInt8.ofNat (v % 0x40 + 0x80)).toNat = v % 0x40 + 0x80 := by
  simp
  omega

/-- The bytes of a character are read as that character. -/
theorem Octets.parts_utf8 (c : Char) (bs : List UInt8) :
    parts .between (String.utf8EncodeChar c ++ bs) = .inr c :: parts .between bs := by
  have valid : c.val.toNat < 0xD800 ∨ 0xDFFF < c.val.toNat ∧ c.val.toNat < 0x110000 := c.valid
  have whole (v : Nat) (same : v = c.val.toNat) : Char.ofNat v = c := by
    rw [same]
    exact Char.ofNat_toNat c
  -- by the number of bytes; the first of several says how many follow, and no value is written in
  -- more bytes than it needs, which is what `follow` checks of the second
  unfold String.utf8EncodeChar
  generalize c.val.toNat = v at valid whole ⊢
  dsimp only
  split_ifs with one two three
  · have low : (UInt8.ofNat v).toNat = v := by simp; omega
    rw [List.singleton_append, parts_ascii (by omega), whole _ low]
  · have lead : (UInt8.ofNat (v / 64 % 0x20 + 0xC0)).toNat = v / 64 % 0x20 + 0xC0 := by simp; omega
    have last := toNat_due v
    rw [List.cons_append, List.singleton_append,
      parts_lead (by omega) (follow_two (by omega) (by omega)), parts_last (by omega) (by omega),
      leadBits, whole]
    have bits : 64 >>> 1 = 32 := rfl
    rw [lead, last, bits]
    omega
  · have lead : (UInt8.ofNat (v / 4096 % 0x10 + 0xE0)).toNat = v / 4096 % 0x10 + 0xE0 := by
      simp; omega
    have next := toNat_due (v / 64)
    have last := toNat_due v
    rw [List.cons_append, List.cons_append, List.singleton_append,
      parts_lead (by omega) (follow_three (by omega) (by omega)),
      parts_inner (by split_ifs <;> omega) (by split_ifs <;> omega),
      parts_last (by omega) (by omega), leadBits, whole]
    have bits : 64 >>> 2 = 16 := rfl
    rw [lead, next, last, bits]
    omega
  · have lead : (UInt8.ofNat (v / 262144 % 0x08 + 0xF0)).toNat = v / 262144 % 0x08 + 0xF0 := by
      simp; omega
    have next := toNat_due (v / 4096)
    have third := toNat_due (v / 64)
    have last := toNat_due v
    rw [List.cons_append, List.cons_append, List.cons_append, List.singleton_append,
      parts_lead (by omega) (follow_four (by omega) (by omega)),
      parts_inner (by split_ifs <;> omega) (by split_ifs <;> omega),
      parts_inner (by omega) (by omega), parts_last (by omega) (by omega), leadBits, whole]
    have bits : 64 >>> 3 = 8 := rfl
    rw [lead, next, third, last, bits]
    omega

/-! ## Cuts -/

theorem ne_of_absent {sep : Char} {cs : List Char} (absent : sep ∉ cs) :
    ∀ c ∈ cs, (c ≠ sep : Bool) = true := by
  intro c mem
  simpa using fun eq : c = sep => absent (eq ▸ mem)

/-- Text is cut at the first separator. -/
theorem cut_append {sep : Char} {cs : List Char} (absent : sep ∉ cs) (rest : List Char) :
    cut sep (cs ++ sep :: rest) = (cs, some rest) := by
  have dropped : (cs ++ sep :: rest).dropWhile (· ≠ sep) = sep :: rest := by
    rw [List.dropWhile_append_of_pos (ne_of_absent absent)]
    simp
  have taken : (cs ++ sep :: rest).takeWhile (· ≠ sep) = cs := by
    rw [List.takeWhile_append_of_pos (ne_of_absent absent)]
    simp
  rw [cut, dropped, taken]

theorem cut_of_absent {sep : Char} {cs : List Char} (absent : sep ∉ cs) :
    cut sep cs = (cs, none) := by
  rw [cut, List.dropWhile_eq_nil_iff.2 (ne_of_absent absent)]

end Text

namespace FormUrl

open Text

/-! ## Bytes -/

theorem unescape_cons_plain {c : Char} (h : c ≠ '%' ∧ c ≠ '+') (cs : List Char) :
    unescape (c :: cs) = String.utf8EncodeChar c ++ unescape cs := by
  rw [unescape]
  · exact fun _ _ _ percent _ => h.1 percent
  · exact h.2

/-- What is written for a byte reads back, whatever follows. -/
theorem unescape_escape_append (b : UInt8) (cs : List Char) :
    unescape (escape b ++ cs) = b :: unescape cs := by
  have byte : UInt8.ofNat b.toNat = b := UInt8.ofNat_toNat
  unfold escape
  split_ifs with plain blank
  · have all : ∀ n < 256, isPlain (UInt8.ofNat n) = true → Char.ofNat n ≠ '%' ∧ Char.ofNat n ≠ '+'
        ∧ String.utf8EncodeChar (Char.ofNat n) = [UInt8.ofNat n] := by decide +kernel
    obtain ⟨not_percent, not_plus, ascii⟩ := all b.toNat b.toNat_lt (byte.symm ▸ plain)
    rw [List.singleton_append, unescape_cons_plain ⟨not_percent, not_plus⟩, ascii, byte]
    rfl
  · rw [beq_iff_eq.1 blank]
    rfl
  · have bound := b.toNat_lt
    have high := hexValue?_hexUpper (n := b.toNat / 16) (by omega)
    have low := hexValue?_hexUpper (n := b.toNat % 16) (by omega)
    have same : 16 * (b.toNat / 16) + b.toNat % 16 = b.toNat := Nat.div_add_mod ..
    simp [unescape, hexByte?, high, low, same]

/-- The bytes of a written text are the bytes of the text. -/
theorem unescape_encode (cs : List Char) : unescape (encode cs) = bytes cs := by
  suffices h : ∀ bs : List UInt8, unescape (bs.flatMap escape) = bs from h (bytes cs)
  intro bs
  induction bs with
  | nil => rfl
  | cons b bs ih => rw [List.flatMap_cons, unescape_escape_append, ih]

/-! ## Lengths -/

/-- A byte that is neither plain nor a blank takes three characters. -/
theorem length_escape {b : UInt8} (hPlain : isPlain b = false) (hBlank : b ≠ 0x20) :
    (escape b).length = 3 := by
  simp [escape, hPlain, hBlank]

/-- A text without plain characters is written three times as long at least. -/
theorem length_encode {cs : List Char}
    (h : ∀ c ∈ cs, ∀ b ∈ String.utf8EncodeChar c, isPlain b = false ∧ b ≠ 0x20) :
    3 * cs.length ≤ (encode cs).length := by
  induction cs with
  | nil => simp
  | cons c cs ih =>
    have hRest := ih fun d hd => h d (List.mem_cons_of_mem c hd)
    -- a character has a first byte, which alone takes three
    obtain ⟨b, bs, hBytes⟩ := List.exists_cons_of_ne_nil (String.utf8EncodeChar_ne_nil (c := c))
    obtain ⟨hPlain, hBlank⟩ := h c List.mem_cons_self b (hBytes ▸ List.mem_cons_self)
    have hFirst := length_escape hPlain hBlank
    simp only [encode, bytes, List.flatMap_cons, List.flatMap_append, List.length_append, hBytes,
      List.length_cons] at hRest ⊢
    omega

/-! ## Texts -/

@[simp] theorem lossy_bytes (cs : List Char) : lossy (bytes cs) = cs := by
  induction cs with
  | nil => rfl
  | cons c cs ih =>
    unfold lossy bytes at ih ⊢
    rw [List.flatMap_cons, Octets.parts_utf8, List.map_cons, ih]

@[simp] theorem decode_encode (cs : List Char) : decode (encode cs) = cs := by
  rw [decode, unescape_encode, lossy_bytes]

/-- A text without the two characters that mean others is read as it stands. -/
theorem decode_of_unmarked {cs : List Char} (h : ∀ c ∈ cs, c ≠ '%' ∧ c ≠ '+') : decode cs = cs := by
  have hBytes : unescape cs = bytes cs := by
    induction cs with
    | nil => rfl
    | cons c cs ih =>
      obtain ⟨hFirst, hRest⟩ := List.forall_mem_cons.1 h
      rw [unescape_cons_plain hFirst, ih hRest, bytes, bytes, List.flatMap_cons]
  rw [decode, hBytes, lossy_bytes]

/-! ## Queries -/

/-- No separator of queries or targets occurs in a written text. -/
theorem plain_of_mem_encode {cs : List Char} {c : Char} (mem : c ∈ encode cs) :
    c ≠ '&' ∧ c ≠ '=' ∧ c ≠ '#' ∧ c ≠ '?' := by
  have all : ∀ n < 256, (escape (UInt8.ofNat n)).all (!"&=#?".toList.contains ·) = true := by
    decide +kernel
  obtain ⟨b, -, written⟩ := List.mem_flatMap.1 mem
  have other := List.all_eq_true.1 (all b.toNat b.toNat_lt) c (by rwa [UInt8.ofNat_toNat])
  simpa using other

/-- A query of one pair. -/
theorem pairs_single {k v : List Char} (hKey : '&' ∉ k ∧ '=' ∉ k) (hValue : '&' ∉ v) :
    pairs (k ++ '=' :: v) = [(decode k, decode v)] := by
  have hPiece : '&' ∉ k ++ '=' :: v := by simp [hKey.1, hValue]
  have hFilled : (k ++ '=' :: v).isEmpty = false := by simp
  simp [pairs, pieces_of_absent hPiece, hFilled, cut_append hKey.2]

/-- A query of one pair with a written value. -/
theorem pairs_encode {k : List Char} (cs : List Char) (plain : '&' ∉ k ∧ '=' ∉ k) :
    pairs (k ++ '=' :: encode cs) = [(decode k, cs)] := by
  rw [pairs_single plain fun mem => (plain_of_mem_encode mem).1 rfl, decode_encode]

end FormUrl

end ServiceRegistry
