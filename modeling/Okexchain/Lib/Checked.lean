import Mathlib.Tactic.SplitIfs

/-!
# Computations that check

A handler reads, checks, and writes; the first check that fails ends it with an error. Such a
computation is an `Except` value, written with `require` and `orThrow`.

`Ends x post err` says how `x` ends: with a value that has `post`, or with an error that has `err`.
With `err` always true this is partial correctness; with a smaller `err` it also says which errors
cannot happen.

**Results.** A computation that has ended with a value is taken apart by `bind_eq_ok`,
`require_eq_ok` and `orThrow_eq_ok`. For `Ends` there is one rule per construct (`Ends.bind`,
`Ends.require`, `Ends.orThrow`) and consequence (`Ends.mono`).
-/

namespace Okexchain

variable {ε α β : Type}

/-- Go on when `c` holds. -/
def require (c : Prop) [Decidable c] (e : ε) : Except ε Unit := if c then .ok () else .error e

/-- Go on with the value. -/
def orThrow (x : Option α) (e : ε) : Except ε α :=
  match x with
  | none => .error e
  | some a => .ok a

theorem bind_eq_ok {x : Except ε α} {f : α → Except ε β} {r : β} :
    x >>= f = .ok r ↔ ∃ a, x = .ok a ∧ f a = .ok r := by
  cases x with
  | ok a => exact ⟨fun h => ⟨a, rfl, h⟩, fun ⟨_, ha, h⟩ => by cases ha; exact h⟩
  | error e => exact ⟨fun h => (by cases h), fun ⟨_, ha, _⟩ => by cases ha⟩

theorem pure_eq_ok {a r : α} : (pure a : Except ε α) = .ok r ↔ a = r :=
  ⟨fun h => by cases h; rfl, fun h => h ▸ rfl⟩

theorem require_eq_ok {c : Prop} [Decidable c] {e : ε} {u : Unit} :
    require c e = .ok u ↔ c := by
  unfold require
  split_ifs with hc
  · exact ⟨fun _ => hc, fun _ => rfl⟩
  · exact ⟨fun h => (by cases h), fun h => absurd h hc⟩

theorem orThrow_eq_ok {x : Option α} {e : ε} {a : α} : orThrow x e = .ok a ↔ x = some a := by
  cases x with
  | none => exact ⟨fun h => (by cases h), fun h => by cases h⟩
  | some b => exact ⟨fun h => (by cases h; rfl), fun h => by cases h; rfl⟩

theorem toOption_eq_some {x : Except ε α} {a : α} : x.toOption = some a ↔ x = .ok a := by
  cases x with
  | ok b => exact ⟨fun h => (by cases h; rfl), fun h => by cases h; rfl⟩
  | error e => exact ⟨fun h => (by cases h), fun h => by cases h⟩

theorem foldlM_cons_eq_ok {f : β → α → Except ε β} {a : α} {l : List α} {b r : β} :
    (a :: l).foldlM f b = .ok r ↔ ∃ b', f b a = .ok b' ∧ l.foldlM f b' = .ok r := by
  rw [List.foldlM_cons, bind_eq_ok]

/-- A loop relates its ends as every turn does. -/
theorem foldlM_relates {R : β → β → Prop} {f : β → α → Except ε β} (hrefl : ∀ b, R b b)
    (htrans : ∀ {b b' b''}, R b b' → R b' b'' → R b b'')
    (hf : ∀ {b a b'}, f b a = .ok b' → R b b') {l : List α} {b r : β}
    (h : l.foldlM f b = .ok r) : R b r := by
  induction l generalizing b with
  | nil =>
    cases h
    exact hrefl _
  | cons a l ih =>
    obtain ⟨b', hturn, hrest⟩ := foldlM_cons_eq_ok.mp h
    exact htrans (hf hturn) (ih hrest)

/-- The error a computation ends with, if it does. -/
def failure : Except ε α → Option ε
  | .ok _ => none
  | .error e => some e

theorem failure_eq_some {x : Except ε α} {e : ε} : failure x = some e ↔ x = .error e := by
  cases x with
  | ok a => exact ⟨fun h => (by cases h), fun h => by cases h⟩
  | error e' => exact ⟨fun h => (by cases h; rfl), fun h => by cases h; rfl⟩

/-- How a computation ends. -/
def Ends (x : Except ε α) (post : α → Prop) (err : ε → Prop) : Prop :=
  match x with
  | .ok a => post a
  | .error e => err e

namespace Ends

variable {x : Except ε α} {f : α → Except ε β} {post post' : α → Prop} {next : β → Prop}
  {err err' : ε → Prop} {a : α} {e : ε}

theorem of_ok (h : Ends x post err) (hx : x = .ok a) : post a := by
  rw [hx] at h
  exact h

theorem of_error (h : Ends x post err) (hx : x = .error e) : err e := by
  rw [hx] at h
  exact h

/-- What a computation is known to end with, if it ends with a value. -/
theorem intro (hok : ∀ a, x = .ok a → post a) (herr : ∀ e, x = .error e → err e) :
    Ends x post err := by
  cases x with
  | ok a => exact hok a rfl
  | error e => exact herr e rfl

theorem pure (h : post a) : Ends (Pure.pure a : Except ε α) post err := h

theorem eq_ok (hx : x = .ok a) : Ends x (fun r => r = a) err := by
  rw [hx]
  exact rfl

theorem mono (h : Ends x post err) (hpost : ∀ a, post a → post' a) (herr : ∀ e, err e → err' e) :
    Ends x post' err' :=
  .intro (fun a hx => hpost a (h.of_ok hx)) fun e hx => herr e (h.of_error hx)

theorem bind (h : Ends x post err) (hf : ∀ a, x = .ok a → post a → Ends (f a) next err) :
    Ends (x >>= f) next err := by
  cases x with
  | ok a => exact hf a rfl h
  | error e => exact h

theorem require {c : Prop} [Decidable c] (he : ¬ c → err e) :
    Ends (Okexchain.require c e) (fun _ => c) err := by
  unfold Okexchain.require
  split_ifs with hc
  · exact hc
  · exact he hc

theorem orThrow {o : Option α} (he : o = none → err e) :
    Ends (Okexchain.orThrow o e) (fun a => o = some a) err := by
  cases o with
  | none => exact he rfl
  | some a => exact rfl

theorem ite {c : Prop} [Decidable c] {y : Except ε α} (hx : c → Ends x post err)
    (hy : ¬ c → Ends y post err) : Ends (if c then x else y) post err := by
  split_ifs with hc
  · exact hx hc
  · exact hy hc

/-- A computation without errors has a value. -/
theorem exists_ok (h : Ends x post fun _ => False) : ∃ a, x = .ok a ∧ post a := by
  cases x with
  | ok a => exact ⟨a, rfl, h⟩
  | error e => exact h.elim

end Ends

end Okexchain
