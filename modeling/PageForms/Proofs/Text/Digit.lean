import Mathlib.Tactic.Ring
import PageForms.Proofs.Token.Boundary
import PageForms.Text.Digit

/-!
# Decimal digits

The decimal text of a number consists of ASCII digits, has at most as many of them as a power of ten
above the number has zeros, and its digits spell the number.
-/

namespace PageForms.Text

def IsDigit (c : Char) : Prop :=
  0x30 ≤ c.toNat ∧ c.toNat ≤ 0x39

def digitOf (c : Char) : ℕ :=
  c.toNat - 0x30

def valueOf (cs : List Char) : ℕ :=
  ofDigits 10 (cs.map digitOf)

theorem IsDigit.digitValue? {c : Char} (h : IsDigit c) : digitValue? c = some (digitOf c) := by
  have hfirst : zeroDigits = 0x30 :: zeroDigits.tail := rfl
  unfold Text.digitValue?
  simp only
  rw [hfirst, List.find?_cons_of_pos]
  · rfl
  · simp only [Bool.and_eq_true, decide_eq_true_eq]
    exact h

theorem IsDigit.isAtomChar {c : Char} (h : IsDigit c) : Token.isAtomChar c = true :=
  Token.isAtomChar_of_isPlain (.inl h)

private theorem isDigit_ofNat {d : ℕ} (h : d < 10) : IsDigit (Char.ofNat (0x30 + d)) := by
  revert d
  unfold IsDigit
  decide

private theorem digitOf_ofNat {d : ℕ} (h : d < 10) : digitOf (Char.ofNat (0x30 + d)) = d := by
  revert d
  decide

/-! ## Reading digits -/

theorem takeDigits_append {cs r : List Char} (hcs : ∀ c ∈ cs, IsDigit c)
    (hr : ∀ c, r.head? = some c → digitValue? c = none) :
    takeDigits digitValue? (cs ++ r) = (cs.map digitOf, r) := by
  induction cs with
  | nil =>
      cases r with
      | nil => rfl
      | cons c r =>
          rw [List.nil_append, takeDigits, hr c rfl]
          rfl
  | cons c cs ih =>
      have htail := ih fun d hd => hcs d (by simp [hd])
      rw [List.cons_append, takeDigits, (hcs c (by simp)).digitValue?]
      simp only [htail, List.map_cons]

theorem takeDigits_all {cs : List Char} (hcs : ∀ c ∈ cs, IsDigit c) :
    takeDigits digitValue? cs = (cs.map digitOf, []) := by
  have h := takeDigits_append hcs (r := []) (by simp)
  rwa [List.append_nil] at h

/-! ## The number that digits spell -/

private theorem foldl_digits (base start : ℕ) (ds : List ℕ) :
    ds.foldl (fun n d => n * base + d) start = start * base ^ ds.length + ofDigits base ds := by
  induction ds generalizing start with
  | nil => simp [ofDigits]
  | cons d ds ih =>
      rw [ofDigits, List.foldl_cons, List.foldl_cons, ih, ih (0 * base + d), List.length_cons]
      ring

private theorem ofDigits_append (base : ℕ) (xs ys : List ℕ) :
    ofDigits base (xs ++ ys) = ofDigits base xs * base ^ ys.length + ofDigits base ys := by
  rw [ofDigits, List.foldl_append, foldl_digits]
  rfl

theorem valueOf_append (xs ys : List Char) :
    valueOf (xs ++ ys) = valueOf xs * 10 ^ ys.length + valueOf ys := by
  rw [valueOf, List.map_append, ofDigits_append, List.length_map]
  rfl

theorem valueOf_replicate_zero (n : ℕ) : valueOf (List.replicate n '0') = 0 := by
  induction n with
  | zero => rfl
  | succ n ih =>
      rw [List.replicate_succ', valueOf_append, ih]
      rfl

/-! ## The decimal text of a number -/

theorem isDigit_of_mem_decimal (n : ℕ) : ∀ c ∈ decimal n, IsDigit c := by
  induction n using decimal.induct with
  | case1 n hn =>
      intro c hc
      rw [decimal, if_pos hn, List.mem_singleton] at hc
      rw [hc]
      exact isDigit_ofNat hn
  | case2 n hn ih =>
      intro c hc
      rw [decimal, if_neg hn, List.mem_append, List.mem_singleton] at hc
      rcases hc with hc | rfl
      · exact ih c hc
      · exact isDigit_ofNat (Nat.mod_lt n (by decide))

theorem decimal_ne_nil (n : ℕ) : decimal n ≠ [] := by
  rw [decimal]
  split
  · exact List.cons_ne_nil _ _
  · simp

theorem valueOf_decimal (n : ℕ) : valueOf (decimal n) = n := by
  induction n using decimal.induct with
  | case1 n hn =>
      rw [decimal, if_pos hn]
      have := digitOf_ofNat hn
      simp [valueOf, ofDigits, this]
  | case2 n hn ih =>
      have hlast : valueOf [Char.ofNat (0x30 + n % 10)] = n % 10 := by
        have := digitOf_ofNat (Nat.mod_lt n (by decide : 10 > 0))
        simp [valueOf, ofDigits, this]
      rw [decimal, if_neg hn, valueOf_append, ih, hlast, List.length_singleton, pow_one]
      omega

theorem length_decimal_le {n k : ℕ} (h : n < 10 ^ k) (hk : 0 < k) : (decimal n).length ≤ k := by
  induction n using decimal.induct generalizing k with
  | case1 n hn =>
      rw [decimal, if_pos hn, List.length_singleton]
      exact hk
  | case2 n hn ih =>
      cases k with
      | zero => omega
      | succ k =>
          have hdiv : n / 10 < 10 ^ k := by
            rw [Nat.div_lt_iff_lt_mul (by decide), ← pow_succ]
            exact h
          have hk' : 0 < k := by
            rcases Nat.eq_zero_or_pos k with rfl | hk'
            · omega
            · exact hk'
          have := ih hdiv hk'
          rw [decimal, if_neg hn, List.length_append, List.length_singleton]
          omega

end PageForms.Text
