import LiveCanvas.Chat.Answer
import LiveCanvas.Proofs.Text.Cut
import Mathlib.Data.List.Infix

/-!
# Which keys are tried

A call goes through its keys in order and stops after the first attempt that does not lead on to the
next one.  The attempts that a call makes are given here as a relation with one rule for each way an
attempt can go.  Which keys were tried, what comes back and what an error reports all follows from
the outcomes of these attempts.
-/

namespace LiveCanvas

namespace ServiceFailure

theorem reportedStatus_eq (failure : ServiceFailure) :
    failure.reportedStatus = (failure.status.filter (· ≠ 0)).getD 429 := by
  unfold reportedStatus
  cases failure.status with
  | none => rfl
  | some status => by_cases hzero : status = 0 <;> simp [Option.filter, hzero]

/-- The service's own failures for rate limits and unavailability lead on, whatever they say. -/
theorem isRetryable_of_isOverload {failure : ServiceFailure} (h : failure.isOverload = true) :
    failure.isRetryable = true := by
  rw [isRetryable, h, Bool.true_or, Bool.true_or]

/-- With another status than the two, only the text can make a failure lead on. -/
theorem isRetryable_iff_of_status {failure : ServiceFailure} {status : Int}
    (hkind : failure.isOverload = false) (hstatus : failure.status = some status)
    (hother : status ≠ 429 ∧ status ≠ 503) :
    failure.isRetryable = true ↔ Text.toList "429" <:+: failure.message.toList := by
  have hno : failure.status.any isRetryStatus = false := by
    simpa [hstatus, isRetryStatus] using hother
  rw [isRetryable, hkind, hno, Bool.false_or, Bool.false_or, Text.occursIn_iff_isInfix]

end ServiceFailure

/-- The attempt leads on to the next key. -/
def Outcome.leadsOn {α : Type} : Outcome α → Bool
  | .failed failure => failure.isRetryable
  | .answered _ | .timedOut => false

theorem Outcome.leadsOn_iff {α : Type} {outcome : Outcome α} :
    outcome.leadsOn = true ↔
      ∃ failure, outcome = .failed failure ∧ failure.isRetryable = true := by
  cases outcome <;> simp [leadsOn]

namespace Failover

section Tries

variable {σ α : Type}

/-- The outcomes of the attempts that are made with some keys, and the state after them. -/
inductive Tries (attempt : Text → σ → Outcome α × σ) :
    List Text → σ → List (Outcome α) → σ → Prop
  | done (s : σ) : Tries attempt [] s [] s
  | stop {key : Text} {s : σ} (rest : List Text) :
      (attempt key s).1.leadsOn = false →
      Tries attempt (key :: rest) s [(attempt key s).1] (attempt key s).2
  | on {key : Text} {rest : List Text} {s s' : σ} {outcomes : List (Outcome α)} :
      (attempt key s).1.leadsOn = true → Tries attempt rest (attempt key s).2 outcomes s' →
      Tries attempt (key :: rest) s ((attempt key s).1 :: outcomes) s'

/-- What a call comes to when its last attempt, the one with this number, has this outcome. -/
def ending (limit : Float) (attempts : Nat) : Outcome α → Except ServiceError α
  | .answered answer => .ok answer
  | .timedOut => .error ⟨.timedOut limit, attempts⟩
  | .failed failure =>
    if failure.isRetryable then .error ⟨.exhausted failure.reportedStatus, attempts⟩
    else .error ⟨.failed failure, attempts⟩

/-- An error reports how many attempts there were. -/
theorem attempts_of_ending {limit : Float} {attempts : Nat} {outcome : Outcome α} {e : ServiceError}
    (h : ending limit attempts outcome = .error e) : e.attempts = attempts := by
  cases outcome with
  | answered answer => cases h
  | timedOut =>
      cases h
      rfl
  | failed failure =>
      rw [ending] at h
      split at h <;> cases h <;> rfl

/-- A failure in the last attempt is reported with its status.  When it would have led on, a status
that says nothing is reported as a rate limit. -/
theorem exists_error_ending (limit : Float) (attempts : Nat) (failure : ServiceFailure) :
    ∃ e, ending limit attempts (.failed failure : Outcome α) = .error e ∧
      e.status = if failure.isRetryable then some ((failure.status.filter (· ≠ 0)).getD 429)
        else failure.status := by
  rw [ending]
  split
  · exact ⟨_, rfl, congrArg some failure.reportedStatus_eq⟩
  · exact ⟨_, rfl, rfl⟩

variable {attempt : Text → σ → Outcome α × σ} {keys : List Text} {s s' : σ}
  {outcomes : List (Outcome α)}

theorem exists_tries (attempt : Text → σ → Outcome α × σ) (keys : List Text) (s : σ) :
    ∃ outcomes s', Tries attempt keys s outcomes s' := by
  induction keys generalizing s with
  | nil => exact ⟨[], s, .done s⟩
  | cons key rest ih =>
      cases hon : (attempt key s).1.leadsOn with
      | false => exact ⟨_, _, .stop rest hon⟩
      | true =>
          obtain ⟨outcomes, s', h⟩ := ih (attempt key s).2
          exact ⟨_, s', .on hon h⟩

namespace Tries

/-- The loop over the keys, with `tried` attempts before and `last` the status of the last one. -/
theorem tryKeys_eq (h : Tries attempt keys s outcomes s') (limit : Float) (tried : Nat)
    (last : Int) :
    tryKeys limit attempt tried last keys s =
      (outcomes.getLast?.elim (.error ⟨.exhausted last, tried⟩)
        (ending limit (tried + outcomes.length)), s') := by
  induction h generalizing tried last with
  | done s => rfl
  | @stop key s rest hstop =>
      rw [tryKeys]
      cases hattempt : attempt key s with
      | mk outcome after =>
          rw [hattempt] at hstop
          cases outcome with
          | answered answer => rfl
          | timedOut => rfl
          | failed failure =>
              have hno : failure.isRetryable = false := hstop
              simp [ending, hno]
  | @on key rest s s' outcomes hon _ ih =>
      rw [tryKeys]
      cases hattempt : attempt key s with
      | mk outcome after =>
          rw [hattempt] at hon ih
          obtain ⟨failure, rfl, hretry⟩ := Outcome.leadsOn_iff.1 hon
          simp only [hretry, if_true]
          rw [ih]
          -- the status carried along is reported only where no key is left
          cases hlast : outcomes.getLast? with
          | none =>
              obtain rfl := List.getLast?_eq_none_iff.1 hlast
              simp [ending, hretry]
          | some final => simp [List.getLast?_cons, hlast, Nat.add_assoc, Nat.add_comm 1]

/-- What a call comes to. -/
theorem call_eq (h : Tries attempt keys s outcomes s') (limit : Float) :
    call limit attempt keys s =
      (outcomes.getLast?.elim (.error ⟨.noKeys, 0⟩) (ending limit outcomes.length), s') := by
  cases keys with
  | nil =>
      cases h
      rfl
  | cons key rest =>
      rw [call, h.tryKeys_eq, Nat.zero_add]
      · cases h <;> simp [List.getLast?_cons]
      · simp

theorem length_le (h : Tries attempt keys s outcomes s') : outcomes.length ≤ keys.length := by
  induction h with
  | done s => exact Nat.le_refl 0
  | stop rest _ => simp
  | on _ _ ih => simpa using ih

theorem ne_nil (h : Tries attempt keys s outcomes s') (hkeys : keys ≠ []) : outcomes ≠ [] := by
  cases h with
  | done s => exact absurd rfl hkeys
  | stop rest _ => exact List.cons_ne_nil _ _
  | on _ _ => exact List.cons_ne_nil _ _

/-- The next key is tried just if the attempt before it was made and leads on. -/
theorem goesOn_iff (h : Tries attempt keys s outcomes s') {j : Nat} (hj : j + 1 < keys.length) :
    j + 1 < outcomes.length ↔ ∃ outcome, outcomes[j]? = some outcome ∧ outcome.leadsOn = true := by
  induction h generalizing j with
  | done s => simp at hj
  | stop rest hstop => cases j <;> simp [hstop]
  | on hon hrest ih =>
      cases j with
      | zero =>
          have hne := hrest.ne_nil (List.ne_nil_of_length_pos (by simpa using hj))
          simpa [hon] using List.length_pos_iff.2 hne
      | succ j => simpa using ih (by simpa using hj)

/-- What every attempt keeps is kept by all of them. -/
theorem keeps {Holds : σ → Prop} (h : Tries attempt keys s outcomes s')
    (hattempt : ∀ key s, Holds s → Holds (attempt key s).2) (hs : Holds s) : Holds s' := by
  induction h with
  | done s => exact hs
  | stop rest _ => exact hattempt _ _ hs
  | on _ _ ih => exact ih (hattempt _ _ hs)

end Tries

/-- What every attempt keeps is kept by the whole call. -/
theorem call_keeps {Holds : σ → Prop} (hattempt : ∀ key s, Holds s → Holds (attempt key s).2)
    (limit : Float) (keys : List Text) (h : Holds s) :
    Holds (call limit attempt keys s).2 := by
  obtain ⟨outcomes, s', htries⟩ := exists_tries attempt keys s
  rw [htries.call_eq]
  exact htries.keeps hattempt h

end Tries

end Failover

/-- What a caller gets from an answer; with no time at all the service is not even asked. -/
def ServiceAnswer.got (answer : ServiceAnswer) (limit : Float) : Outcome Reply :=
  if leavesTime limit then answer.within limit else .timedOut

namespace Failover

/-- The attempt that gets one answer after the other, and remembers the keys that were tried. -/
def scripted (limit : Float) (answers : Nat → ServiceAnswer) (key : Text) (tried : List Text) :
    Outcome Reply × List Text :=
  ((answers tried.length).got limit, tried ++ [key])

section Scripted

variable {limit : Float} {answers : Nat → ServiceAnswer} {keys before tried : List Text}
  {outcomes : List (Outcome Reply)}

/-- Each attempt takes the next key and gets the next answer. -/
theorem Tries.keys_and_outcomes (h : Tries (scripted limit answers) keys before outcomes tried) :
    tried = before ++ keys.take outcomes.length ∧
      ∀ j < outcomes.length, outcomes[j]? = some ((answers (before.length + j)).got limit) := by
  -- the induction is on the attempts, whichever way an attempt is made
  generalize hattempt : scripted limit answers = attempt at h
  induction h with
  | done before => simp
  | @stop key before rest _ =>
      subst hattempt
      simp [scripted]
  | @on key rest before tried outcomes _ _ ih =>
      subst hattempt
      obtain ⟨htried, houtcomes⟩ := ih
      refine ⟨by simp [htried, scripted], ?_⟩
      intro j hj
      cases j with
      | zero => simp [scripted]
      | succ j =>
          have hnext := houtcomes j (by simpa using hj)
          simpa [scripted, Nat.add_assoc, Nat.add_comm 1] using hnext

/-- What there is to say of a call in which the attempts get these answers. -/
structure Accounts (limit : Float) (keys : List Text) (answers : Nat → ServiceAnswer)
    (result : Except ServiceError Reply) (tried : List Text) : Prop where
  inOrder : tried <+: keys
  asked : keys ≠ [] → tried ≠ []
  goesOn : ∀ j, j + 1 < keys.length →
    (j + 1 < tried.length ↔ j < tried.length ∧ ((answers j).got limit).leadsOn = true)
  withoutKeys : tried = [] → result = .error ⟨.noKeys, 0⟩
  /-- The last attempt decides. -/
  ends : ∀ j, tried.length = j + 1 → result = ending limit (j + 1) ((answers j).got limit)

theorem accounts_call (limit : Float) (keys : List Text) (answers : Nat → ServiceAnswer) :
    Accounts limit keys answers (call limit (scripted limit answers) keys []).1
      (call limit (scripted limit answers) keys []).2 := by
  obtain ⟨outcomes, tried, h⟩ := exists_tries (scripted limit answers) keys []
  obtain ⟨htried, houtcomes⟩ := h.keys_and_outcomes
  simp only [List.length_nil, Nat.zero_add, List.nil_append] at htried houtcomes
  have hlength : tried.length = outcomes.length := by
    rw [htried, List.length_take, Nat.min_eq_left h.length_le]
  rw [h.call_eq limit]
  constructor
  · exact htried ▸ List.take_prefix _ keys
  · rintro hkeys rfl
    exact h.ne_nil hkeys (List.length_eq_zero_iff.1 hlength.symm)
  · intro j hj
    rw [hlength, h.goesOn_iff hj]
    constructor
    · rintro ⟨outcome, houtcome, hon⟩
      have hmade : j < outcomes.length := (List.getElem?_eq_some_iff.1 houtcome).1
      rw [houtcomes j hmade, Option.some.injEq] at houtcome
      exact ⟨hmade, houtcome ▸ hon⟩
    · rintro ⟨hmade, hon⟩
      exact ⟨_, houtcomes j hmade, hon⟩
  · rintro rfl
    obtain rfl := List.length_eq_zero_iff.1 hlength.symm
    rfl
  · intro j hj
    rw [hlength] at hj
    have hlast : outcomes.getLast? = some ((answers j).got limit) := by
      rw [List.getLast?_eq_getElem?, hj, Nat.add_sub_cancel]
      exact houtcomes j (by omega)
    rw [hlast, Option.elim_some, hj]

/-- An attempt is the last one just if it does not lead on or there is no other key. -/
theorem Accounts.length_eq_iff {result : Except ServiceError Reply}
    (h : Accounts limit keys answers result tried) {j : Nat} (hmade : j < tried.length) :
    tried.length = j + 1 ↔ ¬ ((answers j).got limit).leadsOn = true ∨ j + 1 = keys.length := by
  have hle : tried.length ≤ keys.length := h.inOrder.length_le
  by_cases hmore : j + 1 < keys.length
  · have hnext := h.goesOn j hmore
    constructor
    · exact fun hlast => .inl fun hon => absurd (hnext.2 ⟨hmade, hon⟩) (by omega)
    · rintro (hstop | hend)
      · by_contra hlast
        exact hstop (hnext.1 (by omega)).2
      · omega
  · exact iff_of_true (by omega) (.inr (by omega))

/-- Whatever the service answers to the attempts, and however late: the keys are tried in their
order, each attempt but the first is made just if the one before it failed in time with a failure
that leads on, and the last attempt decides what the call comes to. -/
theorem tried_of_answers (limit : Float) (keys : List Text) (answers : Nat → ServiceAnswer) :
    let result := (call limit (scripted limit answers) keys []).1
    let tried := (call limit (scripted limit answers) keys []).2
    tried <+: keys ∧ (keys ≠ [] → tried ≠ []) ∧
    (∀ j, j + 1 < keys.length → (j + 1 < tried.length ↔
      j < tried.length ∧ ∃ failure, (answers j).got limit = .failed failure ∧
        failure.isRetryable = true)) ∧
    (∀ e, result = .error e → e.attempts = tried.length) ∧
    (tried = [] → ∃ e, result = .error e ∧ e.status = none) ∧
    (∀ j, tried.length = j + 1 →
      (∀ reply, (answers j).got limit = .answered reply → result = .ok reply) ∧
      ((answers j).got limit = .timedOut → ∃ e, result = .error e ∧ e.status = none) ∧
      ∀ failure, (answers j).got limit = .failed failure → ∃ e, result = .error e ∧
        e.status = if failure.isRetryable then some ((failure.status.filter (· ≠ 0)).getD 429)
          else failure.status) ∧
    ∀ failure : ServiceFailure, failure.isOverload = true → failure.isRetryable = true := by
  intro result tried
  have h : Accounts limit keys answers result tried := accounts_call limit keys answers
  refine ⟨h.inOrder, h.asked, fun j hj => ?_, fun e he => ?_, fun hnone => ?_, fun j hj => ?_,
    fun _ => ServiceFailure.isRetryable_of_isOverload⟩
  · rw [h.goesOn j hj, Outcome.leadsOn_iff]
  · cases hmade : tried.length with
    | zero =>
        rw [h.withoutKeys (List.length_eq_zero_iff.1 hmade)] at he
        cases he
        rfl
    | succ j => exact attempts_of_ending ((h.ends j hmade).symm.trans he)
  · exact ⟨_, h.withoutKeys hnone, rfl⟩
  · rw [h.ends j hj]
    refine ⟨fun reply hreply => ?_, fun htimeout => ?_, fun failure hfailure => ?_⟩
    · rw [hreply, ending]
    · exact ⟨⟨.timedOut limit, j + 1⟩, by rw [htimeout, ending], rfl⟩
    · rw [hfailure]
      exact exists_error_ending limit (j + 1) failure

/-- A failure with neither of the two statuses ends the call and is reported with its status, just
if its text does not have `429` in it.  Otherwise that takes a key that happens to be the last one,
and a status that says something. -/
theorem status_ends_call_iff {j : Nat} {failure : ServiceFailure} {status : Int}
    (hmade : j < (call limit (scripted limit answers) keys []).2.length)
    (hgot : (answers j).got limit = .failed failure) (hkind : failure.isOverload = false)
    (hstatus : failure.status = some status) (hother : status ≠ 429 ∧ status ≠ 503) :
    let result := (call limit (scripted limit answers) keys []).1
    let tried := (call limit (scripted limit answers) keys []).2
    (tried.length = j + 1 ∧ ∃ e, result = .error e ∧ e.status = some status) ↔
      ¬ Text.toList "429" <:+: failure.message.toList ∨ (j + 1 = keys.length ∧ status ≠ 0) := by
  intro result tried
  have h : Accounts limit keys answers result tried := accounts_call limit keys answers
  have hlast : tried.length = j + 1 ↔ ¬ failure.isRetryable = true ∨ j + 1 = keys.length := by
    rw [h.length_eq_iff hmade, hgot, Outcome.leadsOn]
  -- the error of an attempt like this, when it is the last one
  have hreports : tried.length = j + 1 → ((∃ e, result = .error e ∧ e.status = some status) ↔
      (failure.isRetryable = true → status ≠ 0)) := by
    intro hend
    obtain ⟨reported, hreported, hstatus'⟩ :=
      exists_error_ending (α := Reply) limit (j + 1) failure
    rw [h.ends j hend, hgot, hreported]
    by_cases hretry : failure.isRetryable = true
    · by_cases hzero : status = 0 <;> simp [hstatus', hstatus, hretry, hzero, Option.filter]
    · simp [hstatus', hstatus, hretry]
  rw [← ServiceFailure.isRetryable_iff_of_status hkind hstatus hother]
  constructor
  · rintro ⟨hend, hreported⟩
    by_cases hretry : failure.isRetryable = true
    · have hfinal := (hlast.1 hend).resolve_left fun hno => hno hretry
      exact .inr ⟨hfinal, (hreports hend).1 hreported hretry⟩
    · exact .inl hretry
  · rintro (hno | ⟨hend, hzero⟩)
    · have hlength := hlast.2 (.inl hno)
      exact ⟨hlength, (hreports hlength).2 fun hretry => absurd hretry hno⟩
    · have hlength := hlast.2 (.inr hend)
      exact ⟨hlength, (hreports hlength).2 fun _ => hzero⟩

/-- The first key is busy, and the second attempt fails for good. -/
theorem status_ends_call_iff_second_key :
    let answers : Nat → ServiceAnswer := fun
      | 0 => { delay := 1, outcome := .failed { message := "busy", statusCode := some 503 } }
      | _ => { delay := 2, outcome := .failed { message := "bad request", statusCode := some 400 } }
    let failure : ServiceFailure := { message := "bad request", statusCode := some 400 }
    let result := (call 60 (scripted 60 answers) ["k1", "k2", "k3"] []).1
    let tried := (call 60 (scripted 60 answers) ["k1", "k2", "k3"] []).2
    1 < tried.length ∧ (answers 1).got 60 = .failed failure ∧ failure.isOverload = false ∧
      failure.status = some 400 ∧ ((400 : Int) ≠ 429 ∧ (400 : Int) ≠ 503) ∧
      tried.length = 2 ∧ ∃ e, result = .error e ∧ e.status = some 400 := by
  intro answers failure result tried
  have hmade : 1 < tried.length := by decide +kernel
  have hgot : (answers 1).got 60 = .failed failure := by
    rw [ServiceAnswer.got, if_pos (by decide +kernel), ServiceAnswer.within,
      if_pos (by decide +kernel)]
    rfl
  have hends := (status_ends_call_iff hmade hgot rfl rfl (by decide)).2 (.inl (by decide))
  exact ⟨hmade, hgot, rfl, rfl, by decide, hends.1, hends.2⟩

/-- A failure with the status 400 leads on to the next key, because its text has `429` in it. -/
theorem call_goes_on_after_bad_request :
    let failure : ServiceFailure := { message := "bad request (id 14290)", statusCode := some 400 }
    let answers : Nat → ServiceAnswer := fun
      | 0 => { outcome := .failed failure }
      | _ => { outcome := .answered { text := "ok" } }
    let r := call 60 (scripted 60 answers) ["k1", "k2"] []
    failure.isOverload = false ∧ failure.status = some 400 ∧ r.2 = ["k1", "k2"].map Text.ofString ∧
      r.1.toOption.map (·.text) = some (.ofString "ok") := by
  decide +kernel

end Scripted
end Failover
end LiveCanvas
