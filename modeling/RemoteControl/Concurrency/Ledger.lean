import RemoteControl.Concurrency.Interleave
import RemoteControl.Concurrency.Traces

/-!
# Histories that Account for the State

The history of a run as a list of entries with the newest first, and what can
be said of the entries in it. An entry fits the entries before it, in a sense
that is a parameter: it could happen in the state they have led to, and was
answered as that state has it. A run whose operations each add one entry that
fits leaves a history all of whose entries fit (`fitting_of_run`).

A condition on histories that holds now, and did not hold of the empty one,
came to hold at some entry and has held since (`arose`). What is needed for
`Since` in the other direction is that no entry in between ends it
(`Since.of_kept`).

Histories are compared by `<:+`: a suffix of the history is what it was at an
earlier time. So `e :: l' <:+ l` reads "`e` happened when `l'` had", and a
property of the past is one of a suffix.

## Main definitions

* `Fitting`: Every entry fits the entries before it.
* `Since`: What has held at every point from an earlier one on.

## Theorems

* `fitting_of_run`: The history of a run.
* `arose`, `Since.of_kept`: How a condition came to hold, and why it still does.
* `Fitting.suffix`, `Fitting.cons`: What was fitting before still is, and one
  entry more.
* `Since.after`, `Since.until`: A later start and an earlier end.
* `Since.now`: What holds now holds since now.
-/

namespace Concurrency

variable {μ σ Op Env ι ε α : Type} {Resp : Op → Type}

/-! ## Entries that fit -/

section Fitting

variable (fits : List μ → μ → Prop)

/-- Every entry fits the entries before it. -/
def Fitting (l : List μ) : Prop := ∀ e l', e :: l' <:+ l → fits l' e

variable {fits} {l l' : List μ} {e : μ}

/-- Nothing has happened yet. -/
theorem fitting_nil : Fitting fits [] := by
  intro e l' h
  rw [List.suffix_nil] at h
  cases h

/-- The entries of an earlier history fit as well. -/
theorem Fitting.suffix (h : Fitting fits l) (hs : l' <:+ l) : Fitting fits l' :=
  fun e l'' he => h e l'' (he.trans hs)

/-- One more entry that fits the history before it. -/
theorem Fitting.cons (h : Fitting fits l) (he : fits l e) : Fitting fits (e :: l) := by
  intro d l' hs
  rcases List.suffix_cons_iff.mp hs with heq | hs
  · rw [List.cons.injEq] at heq
    rw [heq.1, heq.2]
    exact he
  · exact h d l' hs

/-- The history of a run whose operations each add one entry that fits. `I` says
    how the state goes with its history. By induction on the run, and within a
    turn along its segment. -/
theorem fitting_of_run [DecidableEq ι] {exec : ι → Env → (o : Op) → σ → Option (Resp o × σ)}
    {history : σ → List μ} {I : σ → Prop}
    (hop : ∀ t env o s r s', exec t env o s = some (r, s') → I s →
      I s' ∧ ∃ e, fits (history s) e ∧ history s' = e :: history s)
    {ok : System Op Resp ε α σ ι → ι → Env → Prop} {a b : System Op Resp ε α σ ι}
    (hrun : Run exec ok a b) (ha : I a.shared) (hnil : history a.shared = []) :
    I b.shared ∧ Fitting fits (history b.shared) := by
  refine hrun.invariant (P := fun s => I s.shared ∧ Fitting fits (history s.shared))
    ⟨ha, by rw [hnil]; exact fitting_nil⟩ ?_
  intro x y t env hx _ hturn
  rcases turn_cases hturn with ⟨p, p', s', _, hseg, rfl⟩
  refine segment_induction (motive := fun _ s => I s ∧ Fitting fits (history s) →
    I s' ∧ Fitting fits (history s')) (fun _ h => h) (fun o k s r s₁ ho ih h => ?_) hseg hx
  -- Each operation of the segment adds its entry to a history that is fitting already.
  rcases hop t env o s r s₁ ho h.1 with ⟨hI, d, hd, hhist⟩
  refine ih ⟨hI, ?_⟩
  rw [hhist]
  exact h.2.cons hd

end Fitting

/-! ## Since -/

/-- The condition holds at every point of the history from `l'` on. -/
def Since (P : List μ → Prop) (l' l : List μ) : Prop :=
  ∀ l'', l' <:+ l'' → l'' <:+ l → P l''

section Since

variable {P : List μ → Prop} {l l' l'' : List μ} {e : μ}

/-- What holds now holds since now. -/
theorem Since.now (h : P l) : Since P l l := by
  intro l'' h' hs
  rw [h'.eq_of_length_le hs.length_le] at h
  exact h

/-- What has held so far and holds after one more entry. -/
theorem Since.cons (h : Since P l' l) (he : P (e :: l)) : Since P l' (e :: l) := by
  intro l'' h' hs
  rcases List.suffix_cons_iff.mp hs with rfl | hs
  · exact he
  · exact h l'' h' hs

/-- A later start. -/
theorem Since.after (h : Since P l' l) (hs : l' <:+ l'') : Since P l'' l :=
  fun k hk hl => h k (hs.trans hk) hl

/-- An earlier end. -/
theorem Since.until (h : Since P l' l) (hs : l'' <:+ l) : Since P l' l'' :=
  fun k hk hl => h k hk (hl.trans hs)

/-- What holds, and is ended by no entry afterwards, holds since. -/
theorem Since.of_kept (hP : P l') (hs : l' <:+ l)
    (hkept : ∀ e k, l' <:+ k → e :: k <:+ l → P k → P (e :: k)) : Since P l' l := by
  induction l with
  | nil =>
      rw [List.suffix_nil] at hs
      subst hs
      exact Since.now hP
  | cons e l ih =>
      rcases List.suffix_cons_iff.mp hs with rfl | hs
      · exact Since.now hP
      -- The condition holds up to the entry before, and this one does not end it.
      · have hbefore : Since P l' l :=
          ih hs (fun d k hk hd => hkept d k hk (hd.trans (List.suffix_cons e l)))
        exact hbefore.cons (hkept e l hs List.suffix_rfl (hbefore l hs List.suffix_rfl))

/-- What holds, and did not hold at first, came to hold at some entry and has held
    since. The entry is the last one before which the condition did not hold. -/
theorem arose (hnil : ¬ P []) (h : P l) :
    ∃ e l', e :: l' <:+ l ∧ ¬ P l' ∧ Since P (e :: l') l := by
  induction l with
  | nil => exact absurd h hnil
  | cons e l ih =>
      by_cases hl : P l
      · -- It held before the last entry already, so look further back.
        rcases ih hl with ⟨d, l', hd, hnot, hsince⟩
        exact ⟨d, l', hd.trans (List.suffix_cons e l), hnot, hsince.cons h⟩
      · -- It is the last entry that has brought it about.
        exact ⟨e, l, List.suffix_rfl, hl, Since.now h⟩

end Since

end Concurrency
