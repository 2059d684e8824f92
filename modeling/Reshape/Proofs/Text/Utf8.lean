import Mathlib.Tactic
import Reshape.Proofs.Outcome
import Reshape.Text.Encoding

/-! Decoding undoes encoding. The decoder takes the bytes of one character at a time: a lead byte, which
says how many follow and where the next may lie, and the bytes it owes. Every character has bytes in
these ranges, so the UTF-8 bytes of a text are read back as the text. Nothing else is read strictly. -/

namespace Reshape.Text

theorem charOfCode_toNat (c : Char) : charOfCode c.toNat = c := by
  have hvalid : c.toNat.isValidChar := c.valid
  rw [charOfCode, dif_pos hvalid]
  exact Char.ext (UInt32.toNat_inj.mp rfl)

theorem toNat_charOfCode {n : Nat} (h : n.isValidChar) : (charOfCode n).toNat = n := by
  rw [charOfCode, dif_pos h]
  rfl

/-! ### One byte -/

theorem toNat_byte {n : Nat} (hn : n < 0x100) : (UInt8.ofNat n).toNat = n :=
  UInt8.toNat_ofNat_of_lt' (show n < 2 ^ 8 by omega)

theorem byte_eq {b : UInt8} {n : Nat} (h : n = b.toNat) : UInt8.ofNat n = b := by
  rw [h, UInt8.ofNat_toNat]

section

variable {mode : Surrogates} {position n : Nat} {p : Pending} {rest : Bytes}

theorem decodeUtf8_ascii (hn : n < 0x80) :
    decodeUtf8 mode position none (.ofNat n :: rest) =
      (decodeUtf8 mode (position + 1) none rest).map (Char.ofNat n :: ·) := by
  rw [decodeUtf8, toNat_byte (by omega), if_pos hn]
  rfl

theorem decodeUtf8_lead (hn : 0x80 ≤ n) (hlt : n < 0x100)
    (hp : Pending.ofLead? position (.ofNat n) = some p) :
    decodeUtf8 mode position none (.ofNat n :: rest) =
      decodeUtf8 mode (position + 1) (some p) rest := by
  rw [decodeUtf8, toNat_byte hlt, if_neg (by omega), hp]

theorem ofLead?_two (hn : 0xc2 ≤ n ∧ n ≤ 0xdf) :
    Pending.ofLead? position (.ofNat n) = some ⟨position, .ofNat n, n - 0xc0, 1, 0x80, 0xbf, false⟩ := by
  rw [Pending.ofLead?, toNat_byte (by omega), if_pos (by simpa using hn)]

theorem ofLead?_three (hn : 0xe0 ≤ n ∧ n ≤ 0xef) :
    Pending.ofLead? position (.ofNat n) =
      some ⟨position, .ofNat n, n - 0xe0, 2, if n = 0xe0 then 0xa0 else 0x80,
        if n = 0xed then 0x9f else 0xbf, false⟩ := by
  rw [Pending.ofLead?, toNat_byte (by omega), if_neg (by simp; omega), if_pos (by simpa using hn)]

theorem ofLead?_four (hn : 0xf0 ≤ n ∧ n ≤ 0xf4) :
    Pending.ofLead? position (.ofNat n) =
      some ⟨position, .ofNat n, n - 0xf0, 3, if n = 0xf0 then 0x90 else 0x80,
        if n = 0xf4 then 0x8f else 0xbf, false⟩ := by
  rw [Pending.ofLead?, toNat_byte (by omega), if_neg (by simp; omega), if_neg (by simp; omega),
    if_pos (by simpa using hn)]

theorem decodeUtf8_owed (hlt : n < 0x100) (hn : p.least ≤ n ∧ n ≤ p.greatest) (howed : 1 < p.owed) :
    decodeUtf8 mode position (some p) (.ofNat n :: rest) =
      decodeUtf8 mode (position + 1) (some (p.next n)) rest := by
  simp only [decodeUtf8, toNat_byte hlt, hn, Bool.and_self, decide_true, if_true,
    if_neg (not_le.mpr howed)]

theorem decodeUtf8_last (hlt : n < 0x100) (hn : p.least ≤ n ∧ n ≤ p.greatest) (howed : p.owed = 1) :
    decodeUtf8 mode position (some p) (.ofNat n :: rest) =
      (decodeUtf8 mode (position + 1) none rest).map
        (charOfCode (p.code * 64 + (n - 0x80)) :: ·) := by
  simp only [decodeUtf8, toNat_byte hlt, hn, Bool.and_self, decide_true, if_true, howed, le_refl]
  rfl

end

/-! ### One character -/

/-- The bytes of a character are read as the character, whatever stands behind them. -/
theorem decodeUtf8_encodeChar (mode : Surrogates) (position : Nat) (c : Char) (rest : Bytes) :
    decodeUtf8 mode position none (String.utf8EncodeChar c ++ rest) =
      (decodeUtf8 mode (position + c.utf8Size) none rest).map (c :: ·) := by
  have hvalid : c.toNat < 0xd800 ∨ 0xdfff < c.toNat ∧ c.toNat < 0x110000 := c.valid
  have hchar := charOfCode_toNat c
  rw [← String.length_utf8EncodeChar]
  unfold String.utf8EncodeChar
  rw [show c.val.toNat = c.toNat from rfl]
  generalize hv : c.toNat = v at *
  simp only
  split_ifs with hone htwo hthree
  · rw [List.singleton_append, decodeUtf8_ascii (by omega), ← hv, Char.ofNat_toNat]
    rfl
  · simp only [List.cons_append, List.nil_append]
    rw [decodeUtf8_lead (by omega) (by omega) (ofLead?_two (by omega)),
      decodeUtf8_last (by omega) (by simp; omega) rfl]
    rw [show (v / 64 % 32 + 192 - 192) * 64 + (v % 64 + 128 - 128) = v by omega, hchar]
    rfl
  · simp only [List.cons_append, List.nil_append]
    rw [decodeUtf8_lead (by omega) (by omega) (ofLead?_three (by omega)),
      decodeUtf8_owed (by omega) (by dsimp only; split_ifs <;> omega) (by simp),
      decodeUtf8_last (by omega) (by simp [Pending.next]; omega) rfl]
    simp only [Pending.next]
    rw [show ((v / 4096 % 16 + 224 - 224) * 64 + (v / 64 % 64 + 128 - 128)) * 64 +
      (v % 64 + 128 - 128) = v by omega, hchar]
    rfl
  · simp only [List.cons_append, List.nil_append]
    rw [decodeUtf8_lead (by omega) (by omega) (ofLead?_four (by omega)),
      decodeUtf8_owed (by omega) (by dsimp only; split_ifs <;> omega) (by simp),
      decodeUtf8_owed (by omega) (by simp [Pending.next]; omega) (by simp [Pending.next]),
      decodeUtf8_last (by omega) (by simp [Pending.next]; omega) rfl]
    simp only [Pending.next]
    rw [show (((v / 262144 % 8 + 240 - 240) * 64 + (v / 4096 % 64 + 128 - 128)) * 64 +
      (v / 64 % 64 + 128 - 128)) * 64 + (v % 64 + 128 - 128) = v by omega, hchar]
    rfl

section

variable {a b c d : UInt8}

theorem utf8EncodeChar_one (ha : a.toNat < 0x80) :
    String.utf8EncodeChar (Char.ofNat a.toNat) = [a] := by
  have hn : (Char.ofNat a.toNat).val.toNat = a.toNat := by
    rw [show Char.ofNat a.toNat = charOfCode a.toNat by 
      rw [charOfCode, dif_pos (by left; omega), Char.ofNat, dif_pos (by left; omega)]]
    exact toNat_charOfCode (by left; omega)
  unfold String.utf8EncodeChar
  simp only [hn]
  rw [if_pos (by omega), byte_eq rfl]

theorem utf8EncodeChar_two (ha : 0xc2 ≤ a.toNat ∧ a.toNat ≤ 0xdf)
    (hb : 0x80 ≤ b.toNat ∧ b.toNat ≤ 0xbf) :
    String.utf8EncodeChar (charOfCode ((a.toNat - 0xc0) * 64 + (b.toNat - 0x80))) = [a, b] := by
  set n := (a.toNat - 0xc0) * 64 + (b.toNat - 0x80) with hdef
  have hn : (charOfCode n).val.toNat = n := toNat_charOfCode (by left; omega)
  unfold String.utf8EncodeChar
  simp only [hn]
  rw [if_neg (by omega), if_pos (by omega), byte_eq (b := a) (by omega), byte_eq (b := b) (by omega)]

theorem utf8EncodeChar_three (ha : 0xe0 ≤ a.toNat ∧ a.toNat ≤ 0xef)
    (hb : (if a.toNat = 0xe0 then 0xa0 else 0x80) ≤ b.toNat ∧
      b.toNat ≤ if a.toNat = 0xed then 0x9f else 0xbf)
    (hc : 0x80 ≤ c.toNat ∧ c.toNat ≤ 0xbf) :
    String.utf8EncodeChar
      (charOfCode (((a.toNat - 0xe0) * 64 + (b.toNat - 0x80)) * 64 + (c.toNat - 0x80))) =
      [a, b, c] := by
  set n := ((a.toNat - 0xe0) * 64 + (b.toNat - 0x80)) * 64 + (c.toNat - 0x80) with hdef
  have hvalid : n < 0xd800 ∨ 0xdfff < n ∧ n < 0x110000 := by split_ifs at hb <;> omega
  have hn : (charOfCode n).val.toNat = n := toNat_charOfCode hvalid
  unfold String.utf8EncodeChar
  simp only [hn]
  split_ifs at hb <;>
  rw [if_neg (by omega), if_neg (by omega), if_pos (by omega), byte_eq (b := a) (by omega),
    byte_eq (b := b) (by omega), byte_eq (b := c) (by omega)]

theorem utf8EncodeChar_four (ha : 0xf0 ≤ a.toNat ∧ a.toNat ≤ 0xf4)
    (hb : (if a.toNat = 0xf0 then 0x90 else 0x80) ≤ b.toNat ∧
      b.toNat ≤ if a.toNat = 0xf4 then 0x8f else 0xbf)
    (hc : 0x80 ≤ c.toNat ∧ c.toNat ≤ 0xbf) (hd : 0x80 ≤ d.toNat ∧ d.toNat ≤ 0xbf) :
    String.utf8EncodeChar
      (charOfCode ((((a.toNat - 0xf0) * 64 + (b.toNat - 0x80)) * 64 + (c.toNat - 0x80)) * 64 +
        (d.toNat - 0x80))) = [a, b, c, d] := by
  set n := (((a.toNat - 0xf0) * 64 + (b.toNat - 0x80)) * 64 + (c.toNat - 0x80)) * 64 +
    (d.toNat - 0x80) with hdef
  have hvalid : n < 0xd800 ∨ 0xdfff < n ∧ n < 0x110000 := by split_ifs at hb <;> omega
  have hn : (charOfCode n).val.toNat = n := toNat_charOfCode hvalid
  unfold String.utf8EncodeChar
  simp only [hn]
  split_ifs at hb <;>
  rw [if_neg (by omega), if_neg (by omega), if_neg (by omega), byte_eq (b := a) (by omega),
    byte_eq (b := b) (by omega), byte_eq (b := c) (by omega), byte_eq (b := d) (by omega)]

end

/-! ### A text -/

/-- The decoder reads the bytes of a text as the text. -/
theorem decodeUtf8_utf8 (mode : Surrogates) (position : Nat) (s : String) :
    decodeUtf8 mode position none (utf8 s) = .ok s.toList := by
  rw [utf8]
  induction s.toList generalizing position with
  | nil => rfl
  | cons c cs ih => rw [List.flatMap_cons, decodeUtf8_encodeChar, ih]; rfl

section

variable {position : Nat} {p : Pending} {bytes : Bytes} {cs : List Char}

/-- What is read while a character is under way starts with a byte in the range that it asks for. -/
theorem decodeUtf8_pending (h : decodeUtf8 .refused position (some p) bytes = .ok cs) :
    ∃ b rest, bytes = b :: rest ∧ p.least ≤ b.toNat ∧ b.toNat ≤ p.greatest ∧
      if p.owed ≤ 1 then
        ∃ more, decodeUtf8 .refused (position + 1) none rest = .ok more ∧
          cs = charOfCode (p.code * 64 + (b.toNat - 0x80)) :: more
      else decodeUtf8 .refused (position + 1) (some (p.next b.toNat)) rest = .ok cs := by
  cases bytes with
  | nil => simp [decodeUtf8] at h
  | cons b rest =>
    refine ⟨b, rest, rfl, ?_⟩
    simp only [decodeUtf8, reduceCtorEq, decide_false, Bool.false_and, Bool.false_eq_true, if_false]
      at h
    split_ifs at h with hrange howed
    · obtain ⟨hleast, hgreatest⟩ : p.least ≤ b.toNat ∧ b.toNat ≤ p.greatest := by simpa using hrange
      refine ⟨hleast, hgreatest, ?_⟩
      rw [if_pos howed]
      cases hmore : decodeUtf8 .refused (position + 1) none rest with
      | error f => simp [hmore] at h
      | ok more => 
        rw [hmore] at h
        exact ⟨more, rfl, (Except.ok.inj h).symm⟩
    · obtain ⟨hleast, hgreatest⟩ : p.least ≤ b.toNat ∧ b.toNat ≤ p.greatest := by simpa using hrange
      refine ⟨hleast, hgreatest, ?_⟩
      rwa [if_neg howed]


theorem ofLead?_eq_some {b : UInt8} (h : Pending.ofLead? position b = some p) :
    (0xc2 ≤ b.toNat ∧ b.toNat ≤ 0xdf) ∧
        p = ⟨position, b, b.toNat - 0xc0, 1, 0x80, 0xbf, false⟩ ∨
      (0xe0 ≤ b.toNat ∧ b.toNat ≤ 0xef) ∧
        p = ⟨position, b, b.toNat - 0xe0, 2, if b.toNat = 0xe0 then 0xa0 else 0x80,
          if b.toNat = 0xed then 0x9f else 0xbf, false⟩ ∨
      (0xf0 ≤ b.toNat ∧ b.toNat ≤ 0xf4) ∧
        p = ⟨position, b, b.toNat - 0xf0, 3, if b.toNat = 0xf0 then 0x90 else 0x80,
          if b.toNat = 0xf4 then 0x8f else 0xbf, false⟩ := by
  simp only [Pending.ofLead?, Bool.and_eq_true, decide_eq_true_eq] at h
  by_cases htwo : 0xc2 ≤ b.toNat ∧ b.toNat ≤ 0xdf
  · rw [if_pos htwo] at h
    exact .inl ⟨htwo, (Option.some.inj h).symm⟩
  · by_cases hthree : 0xe0 ≤ b.toNat ∧ b.toNat ≤ 0xef
    · rw [if_neg htwo, if_pos hthree] at h
      exact .inr (.inl ⟨hthree, (Option.some.inj h).symm⟩)
    · by_cases hfour : 0xf0 ≤ b.toNat ∧ b.toNat ≤ 0xf4
      · rw [if_neg htwo, if_neg hthree, if_pos hfour] at h
        exact .inr (.inr ⟨hfour, (Option.some.inj h).symm⟩)
      · rw [if_neg htwo, if_neg hthree, if_neg hfour] at h
        cases h

end

/-- What is read strictly is written as it was: nothing but the bytes of a text is read. -/
theorem eq_utf8_of_decodeUtf8 {bytes : Bytes} {position : Nat} {cs : List Char}
    (h : decodeUtf8 .refused position none bytes = .ok cs) :
    bytes = cs.flatMap String.utf8EncodeChar := by
  induction hlength : bytes.length using Nat.strong_induction_on generalizing bytes position cs with
  | _ length ih =>
  -- what stands behind a character is shorter, and read from scratch
  have hmore : ∀ {rest : Bytes} {position : Nat} {more : List Char}, rest.length < length →
      decodeUtf8 .refused position none rest = .ok more →
      rest = more.flatMap String.utf8EncodeChar := fun hlt hrest => ih _ hlt hrest rfl
  cases bytes with
  | nil =>
    rw [decodeUtf8] at h
    obtain rfl := Except.ok.inj h
    rfl
  | cons a rest =>
    rw [List.length_cons] at hlength
    rw [decodeUtf8] at h
    split_ifs at h with hone
    · obtain ⟨more, hrest, hcs⟩ := Except.bind_eq_ok.mp h
      obtain rfl := Except.ok.inj hcs
      rw [List.flatMap_cons, utf8EncodeChar_one hone, List.singleton_append,
        ← hmore (by omega) hrest]
    · split at h
      · cases h
      · next p hp =>
        obtain ⟨b, rest, rfl, hleast, hgreatest, h⟩ := decodeUtf8_pending h
        rw [List.length_cons] at hlength
        rcases ofLead?_eq_some hp with ⟨htwo, rfl⟩ | ⟨hthree, rfl⟩ | ⟨hfour, rfl⟩
        · obtain ⟨more, hrest, rfl⟩ := by simpa using h
          rw [List.flatMap_cons, utf8EncodeChar_two htwo ⟨hleast, hgreatest⟩]
          simp [← hmore (by omega) hrest]
        · simp only [Nat.not_ofNat_le_one, if_false] at h
          obtain ⟨c, rest, rfl, hleastc, hgreatestc, h⟩ := decodeUtf8_pending h
          rw [List.length_cons] at hlength
          simp only [Pending.next, Nat.add_one_sub_one, le_refl, if_true] at hleastc hgreatestc h
          obtain ⟨more, hrest, rfl⟩ := h
          rw [List.flatMap_cons, utf8EncodeChar_three hthree ⟨hleast, hgreatest⟩ ⟨hleastc, hgreatestc⟩]
          simp [← hmore (by omega) hrest]
        · simp only [Nat.not_ofNat_le_one, if_false] at h
          obtain ⟨c, rest, rfl, hleastc, hgreatestc, h⟩ := decodeUtf8_pending h
          rw [List.length_cons] at hlength
          simp only [Pending.next, Nat.add_one_sub_one] at hleastc hgreatestc h
          obtain ⟨d, rest, rfl, hleastd, hgreatestd, h⟩ := decodeUtf8_pending h
          rw [List.length_cons] at hlength
          simp only [Pending.next] at hleastd hgreatestd h
          obtain ⟨more, hrest, rfl⟩ := by simpa using h
          rw [List.flatMap_cons, utf8EncodeChar_four hfour ⟨hleast, hgreatest⟩ ⟨hleastc, hgreatestc⟩
            ⟨hleastd, hgreatestd⟩]
          simp [← hmore (by omega) hrest]

theorem decodeStrict_eq_ok {bytes : Bytes} {cs : List Char} :
    decodeStrict bytes = .ok cs ↔ bytes = utf8 (String.ofList cs) := by
  constructor
  · intro h
    rw [utf8, String.toList_ofList]
    exact eq_utf8_of_decodeUtf8 h
  · rintro rfl
    rw [decodeStrict, decodeUtf8_utf8, String.toList_ofList]

/-! ### Detection -/

/-- The characters that may be the first two of an object: space, its braces and a quote. -/
def objectFronts : List Char := [' ', '\t', '\n', '\r', '\x7b', '"', '\x7d']

/-- Such characters are neither a byte order mark nor in wider units. -/
theorem detect_front {a b : Char} (ha : a ∈ objectFronts) (hb : b ∈ objectFronts) (bytes : Bytes) :
    detect (.ofNat a.toNat :: .ofNat b.toNat :: bytes) = (.utf8, 0) := by
  simp only [objectFronts, List.mem_cons, List.not_mem_nil, or_false] at ha hb
  rcases ha with rfl | rfl | rfl | rfl | rfl | rfl | rfl <;>
    rcases hb with rfl | rfl | rfl | rfl | rfl | rfl | rfl <;>
      rcases bytes with _ | ⟨c, _ | ⟨d, bytes⟩⟩ <;> rfl

theorem utf8EncodeChar_front {c : Char} (hc : c ∈ objectFronts) :
    String.utf8EncodeChar c = [.ofNat c.toNat] := by
  simp only [objectFronts, List.mem_cons, List.not_mem_nil, or_false] at hc
  rcases hc with rfl | rfl | rfl | rfl | rfl | rfl | rfl <;> rfl

/-- A text whose first two characters may be those of an object is read back from its bytes. -/
theorem decodeDetected_utf8 {s : String} {a b : Char} {rest : List Char} (hs : s.toList = a :: b :: rest)
    (ha : a ∈ objectFronts) (hb : b ∈ objectFronts) : decodeDetected (utf8 s) = .ok s.toList := by
  have hdetect : detect (utf8 s) = (.utf8, 0) := by
    rw [utf8, hs, List.flatMap_cons, List.flatMap_cons, utf8EncodeChar_front ha,
      utf8EncodeChar_front hb]
    exact detect_front ha hb _
  rw [decodeDetected, hdetect]
  exact decodeUtf8_utf8 .pass 0 s

end Reshape.Text
