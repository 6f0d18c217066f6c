/-!
# Traces of labelled steps

A step relation whose steps leave a list of labels. A trace is a finite sequence of steps with all
their labels, in order.

**Results.** `Trace.trans`, `Trace.single` and `Trace.mono` build traces; `Trace.keeps` and
`Trace.relates` are the two induction rules: what every step keeps, a trace keeps, and what holds
between the ends of every step and composes, holds between the ends of a trace.
-/

namespace Okexchain

variable {α ε : Type}

/-- A sequence of steps with their labels. -/
inductive Trace (step : α → List ε → α → Prop) : α → List ε → α → Prop where
  | refl (a : α) : Trace step a [] a
  | head {a b c : α} {evs evs' : List ε} (h : step a evs b) (ht : Trace step b evs' c) :
      Trace step a (evs ++ evs') c

namespace Trace

variable {step : α → List ε → α → Prop} {a b c : α} {evs evs' : List ε}

theorem single (h : step a evs b) : Trace step a evs b := by
  have := head h (refl b)
  rwa [List.append_nil] at this

theorem trans (h : Trace step a evs b) (h' : Trace step b evs' c) :
    Trace step a (evs ++ evs') c := by
  induction h with
  | refl a => exact h'
  | head hs _ ih =>
    rw [List.append_assoc]
    exact head hs (ih h')

theorem mono {step' : α → List ε → α → Prop} (hstep : ∀ {a evs b}, step a evs b → step' a evs b)
    (h : Trace step a evs b) : Trace step' a evs b := by
  induction h with
  | refl a => exact refl a
  | head hs _ ih => exact head (hstep hs) ih

theorem keeps {P : α → Prop} (hstep : ∀ {a evs b}, step a evs b → P a → P b)
    (h : Trace step a evs b) (ha : P a) : P b := by
  induction h with
  | refl a => exact ha
  | head hs _ ih => exact ih (hstep hs ha)

/-- What holds between the ends of every step, in states that have what every step keeps. -/
theorem relates {P : α → Prop} {R : α → List ε → α → Prop}
    (hstep : ∀ {a evs b}, step a evs b → P a → P b ∧ R a evs b)
    (hrefl : ∀ a, R a [] a)
    (htrans : ∀ {a b c evs evs'}, R a evs b → R b evs' c → R a (evs ++ evs') c)
    (h : Trace step a evs b) (ha : P a) : P b ∧ R a evs b := by
  induction h with
  | refl a => exact ⟨ha, hrefl a⟩
  | head hs _ ih =>
    obtain ⟨hb, hrel⟩ := hstep hs ha
    obtain ⟨hc, hrest⟩ := ih hb
    exact ⟨hc, htrans hrel hrest⟩

end Trace

end Okexchain
