import Mathlib.Data.List.Forall2
import Mathlib.Data.Nat.Digits.Lemmas

/-!
# Unique reading of byte strings

Two encodings read alike when a stream that starts with both of them forces
them to be the same: `SameRead b c P` says that `b ++ r = c ++ s` is possible
only if `P` holds and the rests agree. The relation is stated on the two
concrete encodings, so an encoder that may fail is covered by the bytes it
returns, and it composes field by field: each field may use what the fields
before it have already established.
-/

namespace BookAgent.Lib

variable {α β γ : Type*}

/-- A common stream forces `P` and leaves the same rest. -/
def SameRead (b c : List β) (P : Prop) : Prop :=
  ∀ r s, b ++ r = c ++ s → P ∧ r = s

namespace SameRead

variable {b c b' c' : List β} {P Q : Prop}

theorem nil : SameRead ([] : List β) [] True := fun _ _ h => ⟨trivial, h⟩

theorem mono (h : SameRead b c P) (hPQ : P → Q) : SameRead b c Q :=
  fun r s e => (h r s e).imp_left hPQ

/-- Fields in sequence; the second may rely on what the first established. -/
theorem append (h : SameRead b c P) (h' : P → SameRead b' c' Q) :
    SameRead (b ++ b') (c ++ c') (P ∧ Q) := by
  intro r s e
  rw [List.append_assoc, List.append_assoc] at e
  obtain ⟨hP, e'⟩ := h _ _ e
  obtain ⟨hQ, hrs⟩ := h' hP r s e'
  exact ⟨⟨hP, hQ⟩, hrs⟩

theorem cons {x y : β} (h : x = y → SameRead b c P) :
    SameRead (x :: b) (y :: c) (x = y ∧ P) := by
  intro r s e
  rw [List.cons_append, List.cons_append, List.cons.injEq] at e
  obtain ⟨hP, hrs⟩ := h e.1 r s e.2
  exact ⟨⟨e.1, hP⟩, hrs⟩

/-- A constant header. -/
theorem append_self (header : List β) (h : SameRead b c P) :
    SameRead (header ++ b) (header ++ c) P := by
  intro r s e
  rw [List.append_assoc, List.append_assoc] at e
  exact h r s (List.append_cancel_left e)

/-- Different first symbols never start one stream. -/
theorem of_head_ne {x y : β} (h : x ≠ y) : SameRead (x :: b) (y :: c) P := by
  intro r s e
  rw [List.cons_append, List.cons_append, List.cons.injEq] at e
  exact absurd e.1 h

/-- Fields of one fixed width. -/
theorem of_length_eq (h : b.length = c.length) : SameRead b c (b = c) :=
  fun _ _ e => List.append_inj e h

/-- The whole of a stream is read. -/
theorem eq_nil (h : SameRead b c P) (e : b = c) : P :=
  (h [] [] (by rw [e])).1

/-- Fields whose own width was read before them. -/
theorem prefixed {pb pc : List β} (h : SameRead pb pc P) (hlen : P → b.length = c.length) :
    SameRead (pb ++ b) (pc ++ c) (b = c) :=
  (h.append fun hP => of_length_eq (hlen hP)).mono And.right

end SameRead

/-! ## Sequences -/

section Sequence

variable {α' : Type*} {xs : List α} {ys : List α'} {E : α → List β → Prop}
  {E' : α' → List β → Prop} {R : α → α' → Prop}

/-- Sequences of the same length whose members read alike read alike. -/
theorem SameRead.forall₂ {bs cs : List (List β)}
    (h : ∀ x ∈ xs, ∀ y ∈ ys, ∀ b c, E x b → E' y c → SameRead b c (R x y))
    (hx : List.Forall₂ E xs bs) (hy : List.Forall₂ E' ys cs) (hlen : xs.length = ys.length) :
    SameRead bs.flatten cs.flatten (List.Forall₂ R xs ys) := by
  induction hx generalizing ys cs with
  | nil =>
    cases hy with
    | nil => exact SameRead.nil.mono fun _ => .nil
    | cons => simp at hlen
  | @cons x b xs bs hxb _ ih =>
    cases hy with
    | nil => simp at hlen
    | @cons y c ys cs hyc hys =>
      have head : SameRead b c (R x y) :=
        h x List.mem_cons_self y List.mem_cons_self b c hxb hyc
      have tail : SameRead bs.flatten cs.flatten (List.Forall₂ R xs ys) :=
        ih (fun u hu v hv => h u (List.mem_cons_of_mem _ hu) v (List.mem_cons_of_mem _ hv))
          hys (by simpa using hlen)
      exact (head.append fun _ => tail).mono fun ⟨hR, hRs⟩ => .cons hR hRs

end Sequence

/-! ## `mapM` as a relation -/

section MapM

variable {ε : Type*} {f : α → Except ε γ}

theorem forall₂_of_mapM_ok {xs : List α} {ys : List γ} (h : xs.mapM f = .ok ys) :
    List.Forall₂ (fun x y => f x = .ok y) xs ys := by
  induction xs generalizing ys with
  | nil =>
    simp only [List.mapM_nil, pure, Except.pure, Except.ok.injEq] at h
    subst h
    exact .nil
  | cons x xs ih =>
    rw [List.mapM_cons] at h
    cases hx : f x with
    | error e => simp [hx, bind, Except.bind] at h
    | ok y =>
      cases hxs : xs.mapM f with
      | error e => simp [hx, hxs, bind, Except.bind] at h
      | ok zs =>
        simp only [hx, hxs, bind, Except.bind, pure, Except.pure, Except.ok.injEq] at h
        subst h
        exact .cons hx (ih hxs)

end MapM

/-! ## Big-endian numbers -/

section BigEndian

/-- The low `k` bytes of `n`, most significant first. -/
def beBytes : Nat → Nat → List UInt8
  | 0, _ => []
  | k + 1, n => UInt8.ofNat (n / 256 ^ k) :: beBytes k n

@[simp] theorem length_beBytes (k n : Nat) : (beBytes k n).length = k := by
  induction k with
  | zero => rfl
  | succ k ih => rw [beBytes, List.length_cons, ih]

/-- The low `k` bytes determine the number modulo `256 ^ k`. -/
theorem mod_eq_of_beBytes_eq {k m n : Nat} (h : beBytes k m = beBytes k n) :
    m % 256 ^ k = n % 256 ^ k := by
  induction k with
  | zero => simp [Nat.mod_one]
  | succ k ih =>
    rw [beBytes, beBytes, List.cons.injEq] at h
    have top : m / 256 ^ k % 256 = n / 256 ^ k % 256 := by
      have := congrArg UInt8.toNat h.1
      simpa using this
    rw [pow_succ, Nat.mod_mul, Nat.mod_mul, top, ih h.2]

theorem beBytes_inj {k m n : Nat} (hm : m < 256 ^ k) (hn : n < 256 ^ k)
    (h : beBytes k m = beBytes k n) : m = n := by
  have := mod_eq_of_beBytes_eq h
  rwa [Nat.mod_eq_of_lt hm, Nat.mod_eq_of_lt hn] at this

theorem sameRead_beBytes {k m n : Nat} (hm : m < 256 ^ k) (hn : n < 256 ^ k) :
    SameRead (beBytes k m) (beBytes k n) (m = n) :=
  (SameRead.of_length_eq (by simp)).mono (beBytes_inj hm hn)

end BigEndian

end BookAgent.Lib
