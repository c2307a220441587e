import Mathlib.Data.Nat.Find
import Mathlib.Tactic.IntervalCases
import Pagewright.Proofs.TextBytes
import Pagewright.Proofs.TextOrder

/-!
Byte strings that are no UTF-8. Each parts into characters and broken parts, a broken part being as long as
the bytes begin a character; the text of a byte string has its characters, and one replacement for each
broken part.
-/
namespace Pagewright

namespace Utf8

def IsEncoding (bs : Bytes) : Prop := ∃ cs, bs = encode cs

/-- The bytes begin a character, of which more is to come. -/
def Started (bs : Bytes) : Prop :=
  bs ≠ [] ∧ ∃ c more, more ≠ [] ∧ String.utf8EncodeChar c = bs ++ more

/-- A part that is no character, before the rest of the bytes. -/
structure Broken (part rest : Bytes) : Prop where
  no_character : ∀ c, ¬String.utf8EncodeChar c <+: part ++ rest
  begun : Started part ∨ ∃ b, part = [b]
  longest : ∀ more, more <+: rest → more ≠ [] → ¬Started (part ++ more)

inductive Part where
  | character (c : Char)
  | broken (bytes : Bytes)

namespace Part

def shown : Part → Char
  | character c => c
  | broken _ => replacement

def isBroken : Part → Bool
  | character _ => false
  | broken _ => true

end Part

inductive Parted : List Part → Bytes → Prop
  | nil : Parted [] []
  | character {c : Char} {ps : List Part} {rest : Bytes} : Parted ps rest →
      Parted (.character c :: ps) (String.utf8EncodeChar c ++ rest)
  | broken {part rest : Bytes} {ps : List Part} : Broken part rest → Parted ps rest →
      Parted (.broken part :: ps) (part ++ rest)

/-! ### Open sequences -/

def tail : Nat → Nat → Bytes
  | 0, _ => []
  | n + 1, v => UInt8.ofNat (v / 64 ^ n % 64 + 128) :: tail n v

private theorem tail_ne_nil {n : Nat} (h : 1 ≤ n) (v : Nat) : tail n v ≠ [] := by
  obtain ⟨n, rfl⟩ : ∃ k, n = k + 1 := ⟨n - 1, by omega⟩
  exact List.cons_ne_nil _ _

inductive Opens : Bytes → Pending → Prop
  | lead {b : UInt8} {p : Pending} : lead b = .opens p → Opens [b] p
  | inner {part : Bytes} {p : Pending} {b : UInt8} : Opens part p → p.owed ≠ 1 →
      p.low ≤ b.toNat → b.toNat ≤ p.high →
        Opens (part ++ [b]) ⟨p.owed - 1, p.bits * 64 + (b.toNat - 0x80), 0x80, 0xbf⟩

structure Completes (part : Bytes) (p : Pending) : Prop where
  owed : 1 ≤ p.owed
  low : 0x80 ≤ p.low
  ordered : p.low ≤ p.high
  high : p.high ≤ 0xbf
  completed : ∀ v, v / 64 ^ p.owed = p.bits → p.low ≤ v / 64 ^ (p.owed - 1) % 64 + 128 →
    v / 64 ^ (p.owed - 1) % 64 + 128 ≤ p.high →
      ∃ c, String.utf8EncodeChar c = part ++ tail p.owed v

theorem ofNat_eq {n : Nat} {b : UInt8} (h : n = b.toNat) : UInt8.ofNat n = b := by
  rw [h, UInt8.ofNat_toNat]

section Shapes

variable {v : Nat}

private theorem exists_encode_two (h : 127 < v) (h' : v ≤ 2047) : ∃ c, String.utf8EncodeChar c =
    [UInt8.ofNat (v / 64 % 32 + 192), UInt8.ofNat (v % 64 + 128)] := by
  refine ⟨Char.ofNatAux v (.inl (by omega)), ?_⟩
  change (if v ≤ 127 then _ else if v ≤ 2047 then _ else _) = _
  rw [if_neg (by omega), if_pos h']
  rfl

private theorem exists_encode_three (h : 2047 < v) (h' : v ≤ 65535)
    (hvalid : v < 0xd800 ∨ 0xdfff < v) :
    ∃ c, String.utf8EncodeChar c = [UInt8.ofNat (v / 4096 % 16 + 224),
      UInt8.ofNat (v / 64 % 64 + 128), UInt8.ofNat (v % 64 + 128)] := by
  refine ⟨Char.ofNatAux v (hvalid.imp_right fun hv => ⟨hv, by omega⟩), ?_⟩
  change (if v ≤ 127 then _ else if v ≤ 2047 then _ else if v ≤ 65535 then _ else _) = _
  rw [if_neg (by omega), if_neg (by omega), if_pos h']
  rfl

private theorem exists_encode_four (h : 65535 < v) (h' : v < 0x110000) :
    ∃ c, String.utf8EncodeChar c = [UInt8.ofNat (v / 262144 % 8 + 240),
      UInt8.ofNat (v / 4096 % 64 + 128), UInt8.ofNat (v / 64 % 64 + 128),
      UInt8.ofNat (v % 64 + 128)] := by
  refine ⟨Char.ofNatAux v (.inr ⟨by omega, h'⟩), ?_⟩
  change (if v ≤ 127 then _ else if v ≤ 2047 then _ else if v ≤ 65535 then _ else _) = _
  rw [if_neg (by omega), if_neg (by omega), if_neg (by omega)]
  rfl

end Shapes

/-- The least and the greatest second byte keep clear of all that is no character. -/
theorem completes_lead {b : UInt8} {p : Pending} (h : lead b = .opens p) : Completes [b] p := by
  have htwo {n : Nat} (hb : b.toNat = n + 0xc0) (hn : 2 ≤ n) (hn' : n < 32) :
      Completes [b] ⟨1, n, 0x80, 0xbf⟩ := by
    refine ⟨Nat.le_refl 1, Nat.le_refl _, by simp only; omega, Nat.le_refl _, fun v hv hl hh => ?_⟩
    have hv : v / 64 = n := hv
    obtain ⟨c, hc⟩ := exists_encode_two (v := v) (by omega) (by omega)
    refine ⟨c, hc.trans ?_⟩
    rw [ofNat_eq (show v / 64 % 32 + 192 = b.toNat by omega)]
    simp [tail]
  have hthree {n low high : Nat} (hb : b.toNat = n + 0xe0) (hn : n < 16) (hlow : 0x80 ≤ low)
      (hordered : low ≤ high) (hhigh : high ≤ 0xbf) (hzero : n = 0 → 0xa0 ≤ low)
      (hsurrogate : n = 13 → high ≤ 0x9f) : Completes [b] ⟨2, n, low, high⟩ := by
    refine ⟨by simp only; omega, hlow, hordered, hhigh, fun v hv hl hh => ?_⟩
    have hv : v / 4096 = n := hv
    have hl : low ≤ v / 64 % 64 + 128 := hl
    have hh : v / 64 % 64 + 128 ≤ high := hh
    obtain ⟨c, hc⟩ := exists_encode_three (v := v) (by omega) (by omega) (by omega)
    refine ⟨c, hc.trans ?_⟩
    rw [ofNat_eq (show v / 4096 % 16 + 224 = b.toNat by omega)]
    simp [tail]
  have hfour {n low high : Nat} (hb : b.toNat = n + 0xf0) (hn : n ≤ 4) (hlow : 0x80 ≤ low)
      (hordered : low ≤ high) (hhigh : high ≤ 0xbf) (hzero : n = 0 → 0x90 ≤ low)
      (hgreatest : n = 4 → high ≤ 0x8f) : Completes [b] ⟨3, n, low, high⟩ := by
    refine ⟨by simp only; omega, hlow, hordered, hhigh, fun v hv hl hh => ?_⟩
    have hv : v / 262144 = n := hv
    have hl : low ≤ v / 4096 % 64 + 128 := hl
    have hh : v / 4096 % 64 + 128 ≤ high := hh
    obtain ⟨c, hc⟩ := exists_encode_four (v := v) (by omega) (by omega)
    refine ⟨c, hc.trans ?_⟩
    rw [ofNat_eq (show v / 262144 % 8 + 240 = b.toNat by omega)]
    simp [tail]
  unfold lead at h
  dsimp only at h
  split_ifs at h <;> cases h
  · exact htwo (by omega) (by omega) (by omega)
  · exact hthree (by omega) (by omega) (by omega) (by omega) (by omega) (by omega) (by omega)
  · exact hthree (by omega) (by omega) (by omega) (by omega) (by omega) (by omega) (by omega)
  · exact hthree (by omega) (by omega) (by omega) (by omega) (by omega) (by omega) (by omega)
  · exact hfour (by omega) (by omega) (by omega) (by omega) (by omega) (by omega) (by omega)
  · exact hfour (by omega) (by omega) (by omega) (by omega) (by omega) (by omega) (by omega)
  · exact hfour (by omega) (by omega) (by omega) (by omega) (by omega) (by omega) (by omega)

theorem Completes.inner {part : Bytes} {p : Pending} {b : UInt8} (h : Completes part p)
    (howed : p.owed ≠ 1) (hlow : p.low ≤ b.toNat) (hhigh : b.toNat ≤ p.high) :
    Completes (part ++ [b]) ⟨p.owed - 1, p.bits * 64 + (b.toNat - 0x80), 0x80, 0xbf⟩ := by
  have hpos := h.owed
  have hleast := h.low
  have hgreatest := h.high
  refine ⟨by simp only; omega, Nat.le_refl _, by simp only; omega, Nat.le_refl _, fun v hv _ _ => ?_⟩
  simp only at hv
  obtain ⟨n, hn⟩ : ∃ n, p.owed = n + 2 := ⟨p.owed - 2, by omega⟩
  have hcompleted := h.completed v
  rw [hn] at hv hcompleted ⊢
  simp only [show n + 2 - 1 = n + 1 from rfl] at hv hcompleted ⊢
  have hbits : v / 64 ^ (n + 2) = p.bits := by
    rw [Nat.pow_succ, ← Nat.div_div_eq_div_mul, hv]
    omega
  obtain ⟨c, hc⟩ := hcompleted hbits (by omega) (by omega)
  refine ⟨c, hc.trans ?_⟩
  rw [tail, ofNat_eq (show v / 64 ^ (n + 1) % 64 + 128 = b.toNat by omega), List.append_assoc]
  rfl

theorem Opens.completes {part : Bytes} {p : Pending} (h : Opens part p) : Completes part p := by
  induction h with
  | lead hb => exact completes_lead hb
  | inner _ howed hlow hhigh ih => exact ih.inner howed hlow hhigh

theorem Opens.ne_nil {part : Bytes} {p : Pending} (h : Opens part p) : part ≠ [] := by
  cases h with
  | lead _ => exact List.cons_ne_nil _ _
  | inner _ _ _ _ => exact List.append_ne_nil_of_right_ne_nil _ (List.cons_ne_nil _ _)

theorem Opens.started {part : Bytes} {p : Pending} (h : Opens part p) : Started part := by
  have hcompletes := h.completes
  have hlow := hcompletes.low
  have hordered := hcompletes.ordered
  have hhigh := hcompletes.high
  refine ⟨h.ne_nil, ?_⟩
  obtain ⟨n, hn⟩ : ∃ n, p.owed = n + 1 := ⟨p.owed - 1, by have := hcompletes.owed; omega⟩
  have hcompleted := hcompletes.completed ((p.bits * 64 + (p.low - 0x80)) * 64 ^ n)
  rw [hn] at hcompleted
  have hnext : (p.bits * 64 + (p.low - 0x80)) * 64 ^ n / 64 ^ n = p.bits * 64 + (p.low - 0x80) :=
    Nat.mul_div_cancel _ (by positivity)
  have hbits : (p.bits * 64 + (p.low - 0x80)) * 64 ^ n / 64 ^ (n + 1) = p.bits := by
    rw [Nat.pow_succ, ← Nat.div_div_eq_div_mul, hnext]
    omega
  obtain ⟨c, hc⟩ := hcompleted hbits (by rw [Nat.add_sub_cancel, hnext]; omega)
    (by rw [Nat.add_sub_cancel, hnext]; omega)
  exact ⟨c, _, tail_ne_nil (Nat.succ_le_succ n.zero_le) _, hc⟩

theorem Opens.last {part : Bytes} {p : Pending} {b : UInt8} (h : Opens part p) (howed : p.owed = 1)
    (hlow : p.low ≤ b.toNat) (hhigh : b.toNat ≤ p.high) :
    ∃ c, String.utf8EncodeChar c = part ++ [b] := by
  have hleast := h.completes.low
  have hgreatest := h.completes.high
  obtain ⟨c, hc⟩ := h.completes.completed (p.bits * 64 + (b.toNat - 0x80))
    (by rw [howed]; omega) (by rw [howed]; omega) (by rw [howed]; omega)
  refine ⟨c, hc.trans ?_⟩
  rw [howed, tail, ofNat_eq (b := b) (by omega)]
  rfl

theorem Opens.next {part : Bytes} {p : Pending} (h : Opens part p) {t : Nat} (ht : t < 64)
    (howed : p.owed ≠ 1) (hlow : p.low ≤ t + 128) (hhigh : t + 128 ≤ p.high) :
    ∃ q, Opens (part ++ [UInt8.ofNat (t + 128)]) q ∧ q.owed = p.owed - 1 ∧ q.low = 0x80 ∧
      q.high = 0xbf := by
  have hb : (UInt8.ofNat (t + 128)).toNat = t + 128 := toNat_ofNat (by omega)
  exact ⟨_, h.inner howed (by omega) (by omega), rfl, rfl, rfl⟩

section Opening

variable {v : Nat} {a : UInt8} {part more : Bytes}

private theorem opens_of_two (h : 127 < v) (h' : v ≤ 2047) (hmore : more ≠ [])
    (heq : [UInt8.ofNat (v / 64 % 32 + 192), UInt8.ofNat (v % 64 + 128)] = a :: part ++ more) :
    ∃ p, Opens (a :: part) p := by
  rw [List.cons_append, List.cons.injEq] at heq
  obtain ⟨rfl, heq⟩ := heq
  rcases part with _ | ⟨b, part⟩
  · exact ⟨_, .lead (lead_two (by omega) (by omega))⟩
  · simp [hmore] at heq

private theorem opens_of_three (hvalid : v < 0xd800 ∨ 0xdfff < v) (h : 2047 < v) (h' : v ≤ 65535)
    (hmore : more ≠ [])
    (heq : [UInt8.ofNat (v / 4096 % 16 + 224), UInt8.ofNat (v / 64 % 64 + 128),
      UInt8.ofNat (v % 64 + 128)] = a :: part ++ more) : ∃ p, Opens (a :: part) p := by
  have hlead := Opens.lead (lead_three (a := v / 4096 % 16) (by omega))
  rw [List.cons_append, List.cons.injEq] at heq
  obtain ⟨rfl, heq⟩ := heq
  rcases part with _ | ⟨b, part⟩
  · exact ⟨_, hlead⟩
  · rw [List.cons_append, List.cons.injEq] at heq
    obtain ⟨rfl, heq⟩ := heq
    rcases part with _ | ⟨c, part⟩
    · obtain ⟨q, hq, -⟩ := hlead.next (t := v / 64 % 64) (by omega) (by simp)
        (by simp only; split <;> omega) (by simp only; split <;> omega)
      exact ⟨q, hq⟩
    · simp [hmore] at heq

private theorem opens_of_four (h : 65535 < v) (h' : v < 0x110000) (hmore : more ≠ [])
    (heq : [UInt8.ofNat (v / 262144 % 8 + 240), UInt8.ofNat (v / 4096 % 64 + 128),
      UInt8.ofNat (v / 64 % 64 + 128), UInt8.ofNat (v % 64 + 128)] = a :: part ++ more) :
    ∃ p, Opens (a :: part) p := by
  have hlead := Opens.lead (lead_four (a := v / 262144 % 8) (by omega))
  rw [List.cons_append, List.cons.injEq] at heq
  obtain ⟨rfl, heq⟩ := heq
  rcases part with _ | ⟨b, part⟩
  · exact ⟨_, hlead⟩
  · rw [List.cons_append, List.cons.injEq] at heq
    obtain ⟨rfl, heq⟩ := heq
    obtain ⟨q, hq, howed, hlow, hhigh⟩ := hlead.next (t := v / 4096 % 64) (by omega) (by simp)
      (by simp only; split <;> omega) (by simp only; split <;> omega)
    rcases part with _ | ⟨c, part⟩
    · exact ⟨q, hq⟩
    · rw [List.cons_append, List.cons.injEq] at heq
      obtain ⟨rfl, heq⟩ := heq
      rcases part with _ | ⟨d, part⟩
      · obtain ⟨q', hq', -⟩ := hq.next (t := v / 64 % 64) (by omega) (by simp [howed])
          (by omega) (by omega)
        exact ⟨q', hq'⟩
      · simp [hmore] at heq

end Opening

theorem Started.opens {part : Bytes} (h : Started part) : ∃ p, Opens part p := by
  obtain ⟨hne, c, more, hmore, hc⟩ := h
  have hvalid : c.val.toNat < 0xd800 ∨ 0xdfff < c.val.toNat ∧ c.val.toNat < 0x110000 := c.valid
  obtain ⟨a, part, rfl⟩ := List.exists_cons_of_ne_nil hne
  rw [String.utf8EncodeChar] at hc
  generalize c.val.toNat = v at hvalid hc
  split at hc
  · simp [hmore] at hc
  · split at hc
    · exact opens_of_two (by omega) (by omega) hmore hc
    · split at hc
      · exact opens_of_three (by omega) (by omega) (by omega) hmore hc
      · exact opens_of_four (by omega) (by omega) hmore hc

/-! ### Reading the parts -/

namespace Reader

theorem Opens.foldl {part : Bytes} {p : Pending} (h : Opens part p) (read : List Char)
    (broken : Bool) : part.foldl next ⟨none, read, broken⟩ = ⟨some p, read, broken⟩ := by
  induction h with
  | lead hb => exact next_lead hb
  | @inner part p b _ howed hlow hhigh ih =>
    rw [List.foldl_append, ih, List.foldl_cons, List.foldl_nil]
    simp only [next]
    rw [if_pos ⟨hlow, hhigh⟩, if_neg howed]

end Reader

private theorem encode_of_ascii {b : UInt8} {c : Char} (h : lead b = .ascii c) :
    String.utf8EncodeChar c = [b] := by
  unfold lead at h
  dsimp only at h
  split at h
  · next hlt =>
    obtain rfl := Lead.ascii.inj h
    have hvalid : b.toNat.isValidChar := .inl (by omega)
    have hval : (Char.ofNat b.toNat).val.toNat = b.toNat := by
      rw [Char.ofNat, dif_pos hvalid]
      rfl
    rw [String.utf8EncodeChar, hval]
    simp only [show b.toNat ≤ 127 by omega, if_true, UInt8.ofNat_toNat]
  · split_ifs at h

theorem Broken.finish_foldl {part rest : Bytes} (h : Broken part rest) (read : List Char)
    (broken : Bool) :
    ((part ++ rest).foldl Reader.next ⟨none, read, broken⟩).finish =
      (rest.foldl Reader.next ⟨none, replacement :: read, true⟩).finish := by
  rw [List.foldl_append]
  by_cases hstarted : Started part
  · obtain ⟨p, hp⟩ := hstarted.opens
    rw [Reader.Opens.foldl hp]
    cases rest with
    | nil => rfl
    | cons b rest =>
      -- the next byte would make the part longer, or a character of it
      have hout : ¬(p.low ≤ b.toNat ∧ b.toNat ≤ p.high) := by
        rintro ⟨hlow, hhigh⟩
        by_cases howed : p.owed = 1
        · obtain ⟨c, hc⟩ := hp.last howed hlow hhigh
          refine h.no_character c ⟨rest, ?_⟩
          rw [hc, List.append_assoc, List.singleton_append]
        · exact h.longest [b] ⟨rest, rfl⟩ (List.cons_ne_nil _ _) (hp.inner howed hlow hhigh).started
      simp only [List.foldl_cons, Reader.next]
      rw [if_neg hout]
  · obtain ⟨b, rfl⟩ := h.begun.resolve_left hstarted
    have hstray : lead b = .stray := by
      cases hb : lead b with
      | ascii c =>
        exact absurd ⟨rest, by rw [encode_of_ascii hb]⟩ (h.no_character c)
      | opens p => exact absurd (Opens.lead hb).started hstarted
      | stray => rfl
    simp only [List.foldl_cons, List.foldl_nil, Reader.next, Reader.start, hstray]

theorem Parted.finish_foldl {ps : List Part} {bs : Bytes} (h : Parted ps bs) (read : List Char)
    (broken : Bool) :
    (bs.foldl Reader.next ⟨none, read, broken⟩).finish =
      ⟨none, (ps.map Part.shown).reverse ++ read, broken || ps.any Part.isBroken⟩ := by
  induction h generalizing read broken with
  | nil => simp [Reader.finish]
  | character _ ih =>
    rw [List.foldl_append, Reader.foldl_encodeChar, ih]
    simp [Part.shown, Part.isBroken]
  | broken hpart _ ih =>
    rw [hpart.finish_foldl, ih]
    simp [Part.shown, Part.isBroken]

/-- The text of a byte string is what its parts show. -/
theorem Parted.toText {ps : List Part} {bs : Bytes} (h : Parted ps bs) :
    bs.toText = String.ofList (ps.map Part.shown) := by
  rw [Bytes.toText, decode, scan, h.finish_foldl]
  simp

open Classical in
private theorem exists_broken {bs : Bytes} (hne : bs ≠ [])
    (hnone : ∀ c, ¬String.utf8EncodeChar c <+: bs) :
    ∃ part rest, bs = part ++ rest ∧ part ≠ [] ∧ Broken part rest := by
  let Begins (n : Nat) : Prop := n = 1 ∨ Started (bs.take n)
  let n := Nat.findGreatest Begins bs.length
  have hpos : 1 ≤ bs.length := List.length_pos_iff.mpr hne
  have hbegins : Begins n := Nat.findGreatest_spec hpos (.inl rfl)
  have hle : 1 ≤ n := Nat.le_findGreatest hpos (.inl rfl)
  refine ⟨bs.take n, bs.drop n, (List.take_append_drop n bs).symm, ?_, ?_⟩
  · exact List.ne_nil_of_length_pos (by rw [List.length_take]; omega)
  · constructor
    · rwa [List.take_append_drop]
    · refine hbegins.symm.imp_right fun hone => ?_
      obtain ⟨b, rest, rfl⟩ := List.exists_cons_of_ne_nil hne
      exact ⟨b, by rw [hone]; rfl⟩
    · intro more hmore hne' hstarted
      have hlong : bs.take n ++ more = bs.take (n + more.length) := by
        rw [List.take_add, ← List.prefix_iff_eq_take.mp hmore]
      have hlength : n + more.length ≤ bs.length := by
        have hbound := hmore.length_le
        have hn : n ≤ bs.length := Nat.findGreatest_le _
        rw [List.length_drop] at hbound
        omega
      have hmorepos := List.length_pos_iff.mpr hne'
      exact Nat.findGreatest_is_greatest (P := Begins) (show n < n + more.length by omega) hlength
        (.inr (hlong ▸ hstarted))

theorem exists_parted (bs : Bytes) : ∃ ps, Parted ps bs := by
  induction hn : bs.length using Nat.strong_induction_on generalizing bs with
  | _ n ih =>
    subst hn
    by_cases hne : bs = []
    · exact ⟨[], hne ▸ .nil⟩
    · by_cases hsome : ∃ c, String.utf8EncodeChar c <+: bs
      · obtain ⟨c, rest, rfl⟩ := hsome
        obtain ⟨ps, hps⟩ := ih rest.length (by simp [c.utf8Size_pos]) rest rfl
        exact ⟨_, .character hps⟩
      · obtain ⟨part, rest, rfl, hpart, hbroken⟩ := exists_broken hne (not_exists.mp hsome)
        have hlength := List.length_pos_iff.mpr hpart
        obtain ⟨ps, hps⟩ := ih rest.length (by rw [List.length_append]; omega) rest rfl
        exact ⟨_, .broken hbroken hps⟩

@[simp] theorem valid_iff {bs : Bytes} : valid bs = true ↔ IsEncoding bs := by
  constructor
  · intro hvalid
    obtain ⟨ps, hps⟩ := exists_parted bs
    have hwhole : ps.any Part.isBroken = false := by
      rw [valid, scan, hps.finish_foldl] at hvalid
      simpa using hvalid
    clear hvalid
    refine ⟨ps.map Part.shown, ?_⟩
    induction hps with
    | nil => rfl
    | @character c ps rest _ ih =>
      rw [List.map_cons, encode, List.flatMap_cons]
      exact congrArg (String.utf8EncodeChar c ++ ·) (ih (by simpa [Part.isBroken] using hwhole))
    | broken _ _ _ => cases hwhole
  · rintro ⟨cs, rfl⟩
    rw [valid, scan_encode]
    rfl

/-! ### Next to texts -/

namespace Reader

/-- What an open sequence waits for is no beginning of a character. -/
def Waits (r : Reader) : Prop := ∀ p, r.pending = some p → 0x80 ≤ p.low ∧ p.high ≤ 0xbf

@[simp] theorem waits_start (r : Reader) (b : UInt8) : (r.start b).Waits := by
  unfold start
  cases hb : lead b with
  | opens p =>
    rintro q ⟨⟩
    exact ⟨(completes_lead hb).low, (completes_lead hb).high⟩
  | _ => nofun

@[simp] private theorem waits_next (r : Reader) (b : UInt8) : (r.next b).Waits := by
  unfold next
  split
  · exact waits_start r b
  · dsimp only
    split_ifs
    · nofun
    · rintro q ⟨⟩
      exact ⟨Nat.le_refl _, Nat.le_refl _⟩
    · exact waits_start _ b

theorem waits_foldl {r : Reader} (h : r.Waits) (bs : Bytes) : (bs.foldl next r).Waits :=
  List.foldlRecOn bs next h fun r _ b _ => waits_next r b

private theorem foldl_encodeChar_finish {r : Reader} (h : r.Waits) (c : Char) :
    (String.utf8EncodeChar c).foldl next r = (String.utf8EncodeChar c).foldl next r.finish := by
  obtain ⟨b, rest, hc, hb⟩ : ∃ b rest, String.utf8EncodeChar c = b :: rest ∧
      (b.toNat < 0x80 ∨ 0xc0 ≤ b.toNat) := by
    have hvalid : c.val.toNat < 0xd800 ∨ 0xdfff < c.val.toNat ∧ c.val.toNat < 0x110000 := c.valid
    rw [String.utf8EncodeChar]
    generalize c.val.toNat = v at hvalid
    split_ifs
    · exact ⟨_, _, rfl, .inl (by rw [toNat_ofNat] <;> omega)⟩
    · exact ⟨_, _, rfl, .inr (by rw [toNat_ofNat] <;> omega)⟩
    · exact ⟨_, _, rfl, .inr (by rw [toNat_ofNat] <;> omega)⟩
    · exact ⟨_, _, rfl, .inr (by rw [toNat_ofNat] <;> omega)⟩
  obtain ⟨pending, read, broken⟩ := r
  cases pending with
  | none => rfl
  | some p =>
    obtain ⟨hlow, hhigh⟩ := h p rfl
    rw [hc, List.foldl_cons, List.foldl_cons]
    simp only [next, finish]
    rw [if_neg (by omega)]

theorem foldl_encode_finish {r : Reader} (h : r.Waits) (cs : List Char) :
    ((encode cs).foldl next r).finish = ((encode cs).foldl next r.finish).finish := by
  cases cs with
  | nil =>
    obtain ⟨pending, read, broken⟩ := r
    cases pending <;> rfl
  | cons c cs =>
    rw [encode, List.flatMap_cons, List.foldl_append, List.foldl_append, foldl_encodeChar_finish h]

end Reader

/-- A byte string between two texts keeps its own text, and so do they. -/
@[simp] theorem toText_between (before after : String) (bs : Bytes) :
    (Bytes.ofText before ++ bs ++ Bytes.ofText after).toText = before ++ bs.toText ++ after := by
  obtain ⟨ps, hps⟩ := exists_parted bs
  have hwaits : Reader.Waits ⟨none, before.toList.reverse, false⟩ := nofun
  rw [hps.toText, Bytes.toText, decode, scan, List.foldl_append, List.foldl_append, Bytes.ofText,
    foldl_encode before.toList {} rfl, List.append_nil, Bytes.ofText,
    Reader.foldl_encode_finish (Reader.waits_foldl hwaits bs), hps.finish_foldl,
    foldl_encode after.toList _ rfl]
  apply String.toList_injective
  simp [Reader.finish]

@[simp] theorem ofText_toText_iff {bs : Bytes} : Bytes.ofText bs.toText = bs ↔ IsEncoding bs := by
  constructor
  · exact fun h => ⟨bs.toText.toList, h.symm⟩
  · rintro ⟨cs, rfl⟩
    rw [Bytes.toText, decode_encode, Bytes.ofText, String.toList_ofList]

end Utf8

end Pagewright
