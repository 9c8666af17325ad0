import RemoteControl.Theory.DeviceRuns

/-!
# Commits of the Device Services

How the committed rows, and what is known of each call, change along a
history. Only a commit changes a row (`replay_of_note`), a call commits once
(`committedWith_commit`), and once it has committed what it had found is
settled (`History.settled`).

`History.induction` is the form the theorems about whole runs are proved in:
an entry either commits something, or it changes no row.

What a call knows grows with its own entries only, and each of them says what
was so when it was made. So a fact about the progress of a call that was not
there at its start came with some entry (`entry_of_progress`), and the history
up to that entry says what it was based on.

A row is written by commits alone. The two inductive types name the commits
that write a row of each table, with what they write, so that an argument
about one row splits into four cases, or three, and not into the kinds of a
commit.

## Main definitions

* `EnrollmentChange`, `CredentialChange`: What a commit writes to a row.
* `CommittedWith`: A call has committed writes of some kind.

## Theorems

* `History.induction`: Induction over commits.
* `found_pending`: What an activation has locked was pending at its start.
* `committed_kept`: A call commits one thing.
* `History.inserted`: A row goes back to the commit that has inserted it.
* `suffix_or_suffix`: Of two entries, one comes first.
* `shownDevice_at`, `shownCredential_at`, `verified_at`: What a call goes by
  was so when it looked.
* `Explains.enrollmentChange`, `Explains.credentialChange`: A write is one of
  these.
* `entry_of_progress`: What a call knows came with one of its entries.
* `committedWith_commit`, `committedWith_mono`: A call commits once, and for
  good.
-/

namespace RemoteControl.Devices

open Concurrency

variable {crypto : Crypto} {calls : CallId → Call} {fleet : List Device} {c : CallId}

/-! ## What one commit does to a row -/

section Commits

variable {call : Call} {p : Progress} {ws : Writes}

/-- The ways in which a commit writes an enrollment. -/
inductive EnrollmentChange (crypto : Crypto) (call : Call) (p : Progress) (ws : Writes)
    (w : Write Uuid DeviceEnrollment) : Prop where
  | failed (dto : ActivateDeviceDto) (now : Timestamp) (e : DeviceEnrollment)
      (hcall : call = .activate dto) (hfound : e ∈ p.found) (hw : w = ⟨e.id, some e, e.fail now⟩)
  | used (dto : ActivateDeviceDto) (now : Timestamp) (device : Device) (e : DeviceEnrollment)
      (k : DeviceCredential) (hcall : call = .activate dto)
      (h : Activates crypto dto p now device e k ws) (hw : w = ⟨e.id, some e, e.use now⟩)
  | given (deviceId : Uuid) (now : Timestamp) (e : DeviceEnrollment)
      (hcall : call = .createEnrollmentCode deviceId) (h : IssuesCode crypto deviceId p now e ws)
      (hw : w = ⟨e.id, none, e⟩)
  | superseded (deviceId : Uuid) (now : Timestamp) (r : DeviceEnrollment)
      (hcall : call = .createEnrollmentCode deviceId) (hunsettled : r.isUnsettled = true)
      (howner : r.deviceId = deviceId) (hw : w = ⟨r.id, some r, r.revoke now⟩)

/-- The ways in which a commit writes a credential. -/
inductive CredentialChange (crypto : Crypto) (call : Call) (p : Progress) (ws : Writes)
    (w : Write Uuid DeviceCredential) : Prop where
  | issued (dto : ActivateDeviceDto) (now : Timestamp) (device : Device) (e : DeviceEnrollment)
      (k : DeviceCredential) (hcall : call = .activate dto)
      (h : Activates crypto dto p now device e k ws) (hw : w = ⟨k.id, none, k⟩)
  | revoked (dto : ActivateDeviceDto) (now : Timestamp) (device : Device) (e : DeviceEnrollment)
      (k r : DeviceCredential) (hcall : call = .activate dto)
      (h : Activates crypto dto p now device e k ws) (hactive : r.isActive = true)
      (howner : r.deviceId = device.id) (hw : w = ⟨r.id, some r, r.revoke now⟩)
  | touched (dto : DeviceLoginDto) (now : Timestamp) (r : DeviceCredential)
      (hcall : call = .login dto) (hw : w = ⟨r.id, some r, { r with lastUsedAt := some now }⟩)

/-- A commit writes an enrollment in one of these ways. -/
theorem Explains.enrollmentChange (h : Explains crypto call p ws)
    {w : Write Uuid DeviceEnrollment} (hw : w ∈ ws.enrollments) :
    EnrollmentChange crypto call p ws w := by
  have hempty : ws.enrollments ≠ [] := List.ne_nil_of_mem hw
  cases h with
  -- Most commits write no enrollment.
  | nothing _ _ _ _ hnil _ => exact absurd hnil hempty
  | patched _ _ _ _ _ _ _ _ _ _ hnil _ => exact absurd hnil hempty
  | touched _ _ _ _ _ hnil _ => exact absurd hnil hempty
  | failed dto now hcall _ _ hws _ _ =>
      rcases (hws w).mp hw with ⟨e, he, hwrite⟩
      exact .failed dto now e hcall he hwrite
  | activated dto now device e k hcall hact =>
      exact .used dto now device e k hcall hact ((hact.enrollments w).mp hw)
  | issued deviceId now e hcall hiss =>
      rcases hiss.enrollments w hw with hwrite | ⟨r, hr, hd, _, hwrite⟩
      · exact .given deviceId now e hcall hiss hwrite
      · exact .superseded deviceId now r hcall hr hd hwrite

/-- A commit writes a credential in one of these ways. -/
theorem Explains.credentialChange (h : Explains crypto call p ws)
    {w : Write Uuid DeviceCredential} (hw : w ∈ ws.credentials) :
    CredentialChange crypto call p ws w := by
  have hempty : ws.credentials ≠ [] := List.ne_nil_of_mem hw
  cases h with
  -- Most commits write no credential.
  | nothing _ _ _ _ _ hnil => exact absurd hnil hempty
  | failed _ _ _ _ _ _ _ hnil => exact absurd hnil hempty
  | issued _ _ _ _ hiss => exact absurd hiss.credentials hempty
  | patched _ _ _ _ _ _ _ _ _ _ _ hnil => exact absurd hnil hempty
  | touched dto now hcall _ _ _ hws =>
      rcases hws w hw with ⟨r, hwrite⟩
      exact .touched dto now r hcall hwrite
  | activated dto now device e k hcall hact =>
      rcases hact.credentials w hw with hwrite | ⟨r, hactive, howner, hwrite⟩
      · exact .issued dto now device e k hcall hact hwrite
      · exact .revoked dto now device e k r hcall hact hactive howner hwrite

end Commits

/-! ## Commits in a history -/

/-- The entry commits something. -/
def Event.IsCommit : Event → Prop
  | .committed _ => True
  | _ => False

/-- Any other entry leaves the committed rows as they are. -/
theorem replay_of_note {ev : Event} {l : List Entry} (hev : ¬ ev.IsCommit) :
    replay fleet (⟨c, ev⟩ :: l) = replay fleet l := by
  cases ev <;> first | rfl | exact absurd trivial hev

/-- An entry that commits nothing leaves what the calls have committed. -/
theorem committed_of_note {ev : Event} {l : List Entry} (hev : ¬ ev.IsCommit) (c' : CallId) :
    (progress c' (⟨c, ev⟩ :: l)).committed = (progress c' l).committed := by
  by_cases hc : c = c'
  · rw [hc, progress_own]
    cases ev <;> first | rfl | exact absurd trivial hev
  · rw [progress_other (e := ⟨c, ev⟩) hc]

/-- The call has committed writes of this kind. -/
def CommittedWith (Q : Writes → Prop) (l : List Entry) (c : CallId) : Prop :=
  ∃ ws, (progress c l).committed = some ws ∧ Q ws

/-- Any other entry leaves it open what was committed. -/
theorem committedWith_note {Q : Writes → Prop} {ev : Event} {l : List Entry}
    (hev : ¬ ev.IsCommit) : CommittedWith Q (⟨c, ev⟩ :: l) = CommittedWith Q l := by
  funext c'
  simp only [CommittedWith, committed_of_note hev c']

/-- A call commits once. -/
theorem committedWith_commit {Q : Writes → Prop} {ws : Writes} {l : List Entry}
    (hopen : (progress c l).committed = none) (c' : CallId) :
    CommittedWith Q (⟨c, .committed ws⟩ :: l) c' ↔ (c' = c ∧ Q ws) ∨ CommittedWith Q l c' := by
  by_cases hc : c = c'
  · subst hc
    simp only [CommittedWith, progress_own, Progress.add, hopen, Option.some.injEq,
      exists_eq_left', reduceCtorEq, false_and, exists_false, or_false, true_and]
  · have hne : c' ≠ c := fun h => hc h.symm
    simp only [CommittedWith, progress_other (e := ⟨c, .committed ws⟩) hc, hne, false_and,
      false_or]

/-- Induction over what has happened since a moment: an entry changes no row,
    or it commits what it explains. -/
theorem History.since_induction {P : List Entry → Prop} {l₂ l : List Entry}
    (h : History crypto calls fleet (l₂ ++ l)) (hstart : P l)
    (hnote : ∀ c ev l, History crypto calls fleet l → EntryOk crypto calls fleet l ⟨c, ev⟩ →
      ¬ ev.IsCommit → P l → P (⟨c, ev⟩ :: l))
    (hcommit : ∀ c ws l, History crypto calls fleet l → (progress c l).committed = none →
      Current (replay fleet l) ws → Explains crypto (calls c) (progress c l) ws → P l →
      P (⟨c, .committed ws⟩ :: l)) : P (l₂ ++ l) := by
  induction l₂ with
  | nil => exact hstart
  | cons e l₂ ih =>
      rcases e with ⟨c, ev⟩
      cases ev with
      | committed ws => exact hcommit c ws (l₂ ++ l) h.2 h.1.1 h.1.2.1 h.1.2.2 (ih h.2)
      | _ => exact hnote c _ (l₂ ++ l) h.2 h.1 (fun hc => hc) (ih h.2)

/-- Induction over the whole history. -/
theorem History.induction {P : List Entry → Prop} {l : List Entry}
    (h : History crypto calls fleet l) (hnil : P [])
    (hnote : ∀ c ev l, History crypto calls fleet l → EntryOk crypto calls fleet l ⟨c, ev⟩ →
      ¬ ev.IsCommit → P l → P (⟨c, ev⟩ :: l))
    (hcommit : ∀ c ws l, History crypto calls fleet l → (progress c l).committed = none →
      Current (replay fleet l) ws → Explains crypto (calls c) (progress c l) ws → P l →
      P (⟨c, .committed ws⟩ :: l)) : P l := by
  rw [← List.append_nil l] at h ⊢
  exact h.since_induction hnil hnote hcommit

/-! ## What is known of a call -/

/-- Once a call has committed, it finds no enrollment any more, and is not
    told the time. -/
theorem History.settled {ev : Event} {l : List Entry}
    (hok : EntryOk crypto calls fleet l ⟨c, ev⟩) {c' : CallId}
    (hc' : (progress c' l).committed ≠ none) :
    (progress c' (⟨c, ev⟩ :: l)).found = (progress c' l).found ∧
      (progress c' (⟨c, ev⟩ :: l)).now = (progress c' l).now := by
  by_cases hc : c = c'
  · subst hc
    rw [progress_own]
    cases ev with
    -- It finds no more after its commit.
    | found e => exact absurd hok.1 hc'
    | told now => exact absurd hok.2.2 hc'
    | _ => exact ⟨rfl, rfl⟩
  · rw [progress_other (e := ⟨c, ev⟩) hc]
    exact ⟨rfl, rfl⟩

/-- What an activation has locked was pending at the time it started at, and
    no enrollment was locked twice. -/
theorem found_pending {l : List Entry} (h : History crypto calls fleet l)
    {e : DeviceEnrollment} (he : e ∈ (progress c l).found) :
    ∃ dto now, calls c = .activate dto ∧ (progress c l).now = some now ∧
      e.isPending now = true := by
  induction l with
  | nil => simp only [progress, Progress.start, List.not_mem_nil] at he
  | cons x l ih =>
      rcases x with ⟨c', ev⟩
      by_cases hc : c' = c
      · subst hc
        rw [progress_own] at he ⊢
        cases ev with
        | told now =>
            -- A call is told the time before it finds anything.
            have hnone : (progress c' l).found = [] := h.1.2.1
            simp only [Progress.add, hnone, List.not_mem_nil] at he
        | found row =>
            simp only [Progress.add, List.mem_append, List.mem_singleton] at he
            rcases he with he | rfl
            · exact ih h.2 he
            · exact h.1.2.2.2
        | _ => exact ih h.2 he
      · rw [progress_other (e := ⟨c', ev⟩) hc] at he ⊢
        exact ih h.2 he

/-- What is known of a call since some entry of it: there is that entry. -/
theorem entry_of_progress {P : Progress → Prop} {ev : Event} {l : List Entry}
    (hstart : ¬ P .start) (hadd : ∀ p ev', P (p.add ev') → P p ∨ ev' = ev)
    (h : P (progress c l)) : ∃ l₁, ⟨c, ev⟩ :: l₁ <:+ l := by
  induction l with
  | nil => exact absurd h hstart
  | cons x l ih =>
      -- What was known before came with an earlier entry.
      have hbefore : P (progress c l) → ∃ l₁, ⟨c, ev⟩ :: l₁ <:+ x :: l := by
        intro hp
        rcases ih hp with ⟨l₁, hl₁⟩
        exact ⟨l₁, hl₁.trans (List.suffix_cons _ _)⟩
      rcases x with ⟨c', ev'⟩
      by_cases hc : c' = c
      · subst hc
        rw [progress_own] at h
        rcases hadd _ _ h with hp | rfl
        · exact hbefore hp
        · exact ⟨l, List.suffix_refl _⟩
      · rw [progress_other (e := ⟨c', ev'⟩) hc] at h
        exact hbefore h

/-- A device that a call was shown was in the table at that moment. -/
theorem shownDevice_at {l : List Entry} (h : History crypto calls fleet l) {d : Device}
    (hd : d ∈ (progress c l).devices) :
    ∃ l₁, ⟨c, .shownDevice d⟩ :: l₁ <:+ l ∧ (replay fleet l₁).devices d.id = some d := by
  have hentry : ∃ l₁, ⟨c, .shownDevice d⟩ :: l₁ <:+ l := by
    refine entry_of_progress (P := fun p => d ∈ p.devices) List.not_mem_nil (fun p ev hp => ?_) hd
    cases ev with
    | shownDevice d' =>
        simp only [Progress.add, List.mem_append, List.mem_singleton] at hp
        exact hp.imp_right (fun hsame => by rw [hsame])
    | _ => exact .inl hp
  rcases hentry with ⟨l₁, hl₁⟩
  exact ⟨l₁, hl₁, (h.suffix hl₁).1⟩

/-- A credential that a call was shown was in force at that moment. -/
theorem shownCredential_at {l : List Entry} (h : History crypto calls fleet l)
    {k : DeviceCredential} (hk : (progress c l).credential = some k) :
    ∃ l₁, ⟨c, .shownCredential k⟩ :: l₁ <:+ l ∧ (replay fleet l₁).credentials k.id = some k ∧
      k.isActive = true := by
  have hentry : ∃ l₁, ⟨c, .shownCredential k⟩ :: l₁ <:+ l := by
    refine entry_of_progress (P := fun p => p.credential = some k) (Option.some_ne_none k).symm
      (fun p ev hp => ?_) hk
    cases ev with
    | shownCredential k' => exact .inr (by rw [Option.some.inj hp])
    | _ => exact .inl hp
  rcases hentry with ⟨l₁, hl₁⟩
  exact ⟨l₁, hl₁, (h.suffix hl₁).1⟩

/-- The payload a call goes by is that of its token. -/
theorem verified_at {l : List Entry} (h : History crypto calls fleet l) {payload : DeviceJwtPayload}
    (hp : (progress c l).payload = some payload) :
    ∃ token now, (calls c).token = some token ∧ crypto.verify token now = some payload := by
  have hentry : ∃ l₁, ⟨c, .verified payload⟩ :: l₁ <:+ l := by
    refine entry_of_progress (P := fun p => p.payload = some payload)
      (Option.some_ne_none payload).symm (fun p ev hp => ?_) hp
    cases ev with
    | verified payload' => exact .inr (by rw [Option.some.inj hp])
    | _ => exact .inl hp
  rcases hentry with ⟨l₁, hl₁⟩
  exact (h.suffix hl₁).1

/-- What a call has committed stays so. -/
theorem committed_kept {l₂ l : List Entry} (h : History crypto calls fleet (l₂ ++ l)) {ws : Writes}
    (hws : (progress c l).committed = some ws) :
    (progress c (l₂ ++ l)).committed = some ws := by
  refine h.since_induction (P := fun l => (progress c l).committed = some ws) hws
    (fun c' ev l' _ _ hev ih => (committed_of_note hev c).trans ih)
    (fun c' ws' l' _ hopen _ _ ih => ?_)
  by_cases hc : c' = c
  · -- It does not commit twice.
    rw [hc, ih] at hopen
    simp only [reduceCtorEq] at hopen
  · rw [progress_other (e := ⟨c', .committed ws'⟩) hc]
    exact ih

/-- What a call had committed at some point it has committed later. -/
theorem committedWith_mono {Q : Writes → Prop} {l' l : List Entry}
    (h : History crypto calls fleet l) (hl : l' <:+ l) (hc : CommittedWith Q l' c) :
    CommittedWith Q l c := by
  rcases hl with ⟨newer, rfl⟩
  rcases hc with ⟨ws, hws, hQ⟩
  exact ⟨ws, committed_kept h hws, hQ⟩

/-- A commit in the history is that of its call. -/
theorem committedWith_of_entry {Q : Writes → Prop} {ws : Writes} {l' l : List Entry}
    (h : History crypto calls fleet l) (hl : (⟨c, .committed ws⟩ : Entry) :: l' <:+ l) (hQ : Q ws) :
    CommittedWith Q l c := by
  refine committedWith_mono h hl ⟨ws, ?_, hQ⟩
  rw [progress_own]
  rfl

/-! ## Where a row comes from -/

/-- In a table that is empty at first, every row goes back to a commit that has
    inserted it, and still has what no commit changes (`f`). -/
theorem History.inserted {V X : Type} (rows : Tables → Uuid → Option V)
    (writes : Writes → List (Write Uuid V)) (f : V → X)
    (hinit : ∀ id, rows (Tables.initial fleet) id = none)
    (happly : ∀ T ws, rows (T.apply ws) = applyWrites (writes ws) (rows T))
    (hcurrent : ∀ T ws, Current T ws → ∀ w ∈ writes ws, rows T w.key = w.old)
    (hkept : ∀ call p ws w v, Explains crypto call p ws → w ∈ writes ws → w.old = some v →
      f w.new = f v)
    {l : List Entry} (h : History crypto calls fleet l) {id : Uuid} {v : V}
    (hv : rows (replay fleet l) id = some v) :
    ∃ c ws k, (⟨c, .committed ws⟩ : Entry) :: k <:+ l ∧ ∃ w ∈ writes ws, w.old = none ∧
      f w.new = f v := by
  refine h.induction (P := fun l => ∀ v, rows (replay fleet l) id = some v → ∃ c ws k,
    (⟨c, .committed ws⟩ : Entry) :: k <:+ l ∧ ∃ w ∈ writes ws, w.old = none ∧ f w.new = f v)
    ?_ ?_ ?_ v hv
  -- In the beginning the table is empty.
  · intro v hv
    rw [replay, hinit] at hv
    cases hv
  · intro c ev l _ _ hev ih v hv
    rw [replay_of_note hev] at hv
    rcases ih v hv with ⟨c', ws, k, hk, hinserted⟩
    exact ⟨c', ws, k, hk.trans (List.suffix_cons _ _), hinserted⟩
  · intro c ws l _ _ hcur hexp ih v hv
    have hrow : applyWrites (writes ws) (rows (replay fleet l)) id = some v := by
      rw [← happly]
      exact hv
    -- What is there from before goes back to an earlier commit.
    have hbefore : ∀ v₀, rows (replay fleet l) id = some v₀ → f v = f v₀ → ∃ c' ws' k,
        (⟨c', .committed ws'⟩ : Entry) :: k <:+ ⟨c, .committed ws⟩ :: l ∧
          ∃ w ∈ writes ws', w.old = none ∧ f w.new = f v := by
      intro v₀ hv₀ hsame
      rcases ih v₀ hv₀ with ⟨c', ws', k, hk, w, hw, hold, hf⟩
      exact ⟨c', ws', k, hk.trans (List.suffix_cons _ _), w, hw, hold, hf.trans hsame.symm⟩
    rcases applyWrites_current (hcurrent _ _ hcur) id with ⟨_, heq⟩ | ⟨w, hw, _, hold, hnew⟩
    · exact hbefore v (heq.symm.trans hrow) rfl
    · have hsame : w.new = v := Option.some.inj (hnew.symm.trans hrow)
      cases hwold : w.old with
      | none => exact ⟨c, ws, l, List.suffix_rfl, w, hw, hwold, by rw [hsame]⟩
      -- The row was written over, which leaves `f` as it was.
      | some v₀ =>
          refine hbefore v₀ (hold.trans hwold) ?_
          rw [← hsame]
          exact hkept _ _ _ w v₀ hexp hw hwold

/-- What an enrollment is made with is not changed any more. -/
theorem History.enrollment_inserted {l : List Entry} (h : History crypto calls fleet l) {id : Uuid}
    {e : DeviceEnrollment} (he : (replay fleet l).enrollments id = some e) :
    ∃ c ws k, (⟨c, .committed ws⟩ : Entry) :: k <:+ l ∧ ∃ w ∈ ws.enrollments, w.old = none ∧
      w.new.deviceId = e.deviceId ∧ w.new.codeHash = e.codeHash ∧
      w.new.expiresAt = e.expiresAt := by
  have hkept : ∀ call p ws w r, Explains crypto call p ws → w ∈ ws.enrollments → w.old = some r →
      (w.new.deviceId, w.new.codeHash, w.new.expiresAt) =
      (r.deviceId, r.codeHash, r.expiresAt) := by
    -- A failed attempt, the use and the revocation write other columns.
    intro call p ws w r hexp hw hold
    cases hexp.enrollmentChange hw with
    | failed _ _ _ _ _ hwrite | used _ _ _ _ _ _ _ hwrite | superseded _ _ _ _ _ _ hwrite =>
        rw [hwrite] at hold ⊢
        cases hold
        rfl
    | given _ _ _ _ _ hwrite =>
        rw [hwrite] at hold
        cases hold
  rcases h.inserted Tables.enrollments Writes.enrollments
    (fun e => (e.deviceId, e.codeHash, e.expiresAt)) (fun _ => rfl) (fun _ _ => rfl)
    (fun _ _ hcur => hcur.enrollments) hkept he with ⟨c, ws, k, hk, w, hw, hold, hsame⟩
  rw [Prod.mk.injEq, Prod.mk.injEq] at hsame
  exact ⟨c, ws, k, hk, w, hw, hold, hsame⟩

/-- What a credential is made with is not changed any more. -/
theorem History.credential_inserted {l : List Entry} (h : History crypto calls fleet l) {id : Uuid}
    {k : DeviceCredential} (hk : (replay fleet l).credentials id = some k) :
    ∃ c ws l', (⟨c, .committed ws⟩ : Entry) :: l' <:+ l ∧ ∃ w ∈ ws.credentials, w.old = none ∧
      w.new.deviceId = k.deviceId ∧ w.new.secretHash = k.secretHash := by
  have hkept : ∀ call p ws w r, Explains crypto call p ws → w ∈ ws.credentials → w.old = some r →
      (w.new.deviceId, w.new.secretHash) = (r.deviceId, r.secretHash) := by
    intro call p ws w r hexp hw hold
    -- Of the writes of a credential two have an old row: they write the revocation, and
    -- the use.
    cases hexp.credentialChange hw with
    | revoked _ _ _ _ _ _ _ _ _ _ hwrite | touched _ _ _ _ hwrite =>
        rw [hwrite] at hold ⊢
        cases hold
        rfl
    | issued _ _ _ _ _ _ _ hwrite =>
        rw [hwrite] at hold
        cases hold
  rcases h.inserted Tables.credentials Writes.credentials (fun k => (k.deviceId, k.secretHash))
    (fun _ => rfl) (fun _ _ => rfl) (fun _ _ hcur => hcur.credentials) hkept hk with
    ⟨c, ws, l', hl', w, hw, hold, hsame⟩
  rw [Prod.mk.injEq] at hsame
  exact ⟨c, ws, l', hl', w, hw, hold, hsame⟩

/-! ## The order of entries -/

/-- Of two entries, one comes first. -/
theorem suffix_or_suffix {e₁ e₂ : Entry} {l₁ l₂ l : List Entry} (h₁ : e₁ :: l₁ <:+ l)
    (h₂ : e₂ :: l₂ <:+ l) (hne : e₁ ≠ e₂) : e₁ :: l₁ <:+ l₂ ∨ e₂ :: l₂ <:+ l₁ := by
  rcases List.suffix_or_suffix_of_suffix h₁ h₂ with h | h
  · rcases List.suffix_cons_iff.mp h with heq | h
    · exact absurd (List.cons.inj heq).1 hne
    · exact .inl h
  · rcases List.suffix_cons_iff.mp h with heq | h
    · exact absurd (List.cons.inj heq).1.symm hne
    · exact .inr h

end RemoteControl.Devices
