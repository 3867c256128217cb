import Reachability.Failure

namespace Reachability

namespace Failure

/-- The failures that a wait may try again by the specification, as they pass with time: something
is missing or not ready, a command failed, or a request was lost, throttled or met with a fault of
the server. -/
inductive RetryableBySpec : Failure → Prop
  | missing (kind name : String) : RetryableBySpec (.notFound kind name)
  | command (pod : ObjectKey) (words : List String) (text stdout : String) :
      RetryableBySpec (.exec pod words text stdout)
  | unready (why : Unready) : RetryableBySpec (.notReady why)
  | mismatch (why : Mismatch) : RetryableBySpec (.invalid why)
  | cache : RetryableBySpec .unreadableCache
  | interrupted (why : Interruption) : RetryableBySpec (.interrupted why)
  | lost (why : ApiFailure) (h : ∀ r, why ≠ .refused r) : RetryableBySpec (.api why)
  | faulted (r : Refusal) (h : r.code = 429 ∨ 500 ≤ r.code) : RetryableBySpec (.api (.refused r))

theorem retryableBySpec_refused {r : Refusal} :
    (Failure.api (.refused r)).RetryableBySpec ↔ r.code = 429 ∨ 500 ≤ r.code := by
  refine ⟨fun h => ?_, .faulted r⟩
  cases h with
  | lost _ h => exact absurd rfl (h r)
  | faulted _ h => exact h

/-- The failures that a wait does try again. Besides those of the specification it puts up with a
broken stream, and with a missing object and a conflict as the server words them. -/
def RetriedByPoll (f : Failure) : Prop :=
  f.RetryableBySpec ∨ (∃ text, f = .io text) ∨
    ∃ r, f = .api (.refused r) ∧ (r.code = 404 ∨ r.code = 409 ∧ r.reason ≠ "AlreadyExists")

theorem retriedByPoll_refused {r : Refusal} :
    (Failure.api (.refused r)).RetriedByPoll ↔
      (r.code = 429 ∨ 500 ≤ r.code) ∨ r.code = 404 ∨ r.code = 409 ∧ r.reason ≠ "AlreadyExists" := by
  simp [RetriedByPoll, retryableBySpec_refused]

/-- Apart from a taken name in the server's own words, these are the failures of which the program
says that they are retryable. -/
theorem retryable_iff {f : Failure} (h : ∀ why, f = .api why → why.isAlreadyExists = false) :
    f.retryable = true ↔ f.RetriedByPoll := by
  cases f with
  | api why =>
    cases why with
    | refused r =>
      have hfree : r.code = 409 → r.reason ≠ "AlreadyExists" := by
        simpa [ApiFailure.isAlreadyExists] using h (.refused r) rfl
      rw [retriedByPoll_refused]
      simp only [retryable, ApiFailure.retryable, Bool.or_eq_true, beq_iff_eq, decide_eq_true_eq]
      grind
    | service _ | transport _ | undecodable => exact iff_of_true rfl (.inl (.lost _ nofun))
  | io text => exact iff_of_true rfl (.inr (.inl ⟨text, rfl⟩))
  | notFound _ _ => exact iff_of_true rfl (.inl (.missing ..))
  | exec _ _ _ _ => exact iff_of_true rfl (.inl (.command ..))
  | notReady why => exact iff_of_true rfl (.inl (.unready why))
  | invalid why => exact iff_of_true rfl (.inl (.mismatch why))
  | unreadableCache => exact iff_of_true rfl (.inl .cache)
  | interrupted why => exact iff_of_true rfl (.inl (.interrupted why))
  | alreadyExists _ _ | unexpectedCount _ _ | noClientPod | deadlineExceeded _ _ | cancelled _ _
  | settings _ | yaml =>
    refine iff_of_false Bool.noConfusion ?_
    rintro (hpasses | ⟨_, htext⟩ | ⟨_, hrefused, _⟩)
    · cases hpasses
    · cases htext
    · cases hrefused

end Failure

theorem ApiFailure.isNotFound_iff {why : ApiFailure} :
    why.isNotFound = true ↔ ∃ r, why = .refused r ∧ r.code = 404 := by
  cases why <;> simp [ApiFailure.isNotFound]

theorem ApiFailure.isAlreadyExists_iff {why : ApiFailure} :
    why.isAlreadyExists = true ↔
      ∃ r, why = .refused r ∧ r.code = 409 ∧ r.reason = "AlreadyExists" := by
  cases why <;> simp [ApiFailure.isAlreadyExists]

namespace Failure

variable {kind name : String} {why : ApiFailure}

theorem ofApi_of_isNotFound (h : why.isNotFound = true) :
    ofApi kind name why = .notFound kind name := if_pos h

theorem ofApi_of_isAlreadyExists (h : why.isAlreadyExists = true) :
    ofApi kind name why = .alreadyExists kind name := by
  obtain ⟨r, rfl, hcode, -⟩ := ApiFailure.isAlreadyExists_iff.1 h
  have hfound : ¬ (ApiFailure.refused r).isNotFound = true := by
    simp [ApiFailure.isNotFound, hcode]
  rw [ofApi, if_neg hfound, if_pos h]

theorem ofApi_of_neither (hfound : why.isNotFound = false) (htaken : why.isAlreadyExists = false) :
    ofApi kind name why = .api why := by
  simp only [ofApi, hfound, htaken, Bool.false_eq_true, if_false]

/-- What an answer of the server says about the object keeps its meaning when the object is named:
it is missing, its name is taken. Whether a wait may try again keeps it too, except for a taken
name: in the server's own words a wait takes it for a conflict that passes. -/
theorem ofApi_treated_alike (kind name : String) (why : ApiFailure) :
    (ofApi kind name why).isNotFound = (api why).isNotFound ∧
      (ofApi kind name why).isAlreadyExists = (api why).isAlreadyExists ∧
      ((ofApi kind name why).retryable = (api why).retryable ↔
        ¬ ∃ r, why = .refused r ∧ r.code = 409 ∧ r.reason = "AlreadyExists") := by
  rw [← ApiFailure.isAlreadyExists_iff]
  cases hfound : why.isNotFound with
  | true =>
    obtain ⟨r, rfl, hcode⟩ := ApiFailure.isNotFound_iff.1 hfound
    rw [ofApi_of_isNotFound hfound]
    simp [isNotFound, isAlreadyExists, retryable, ApiFailure.isNotFound, ApiFailure.isAlreadyExists,
      ApiFailure.retryable, hcode]
  | false =>
    cases htaken : why.isAlreadyExists with
    | true =>
      obtain ⟨r, rfl, hcode, hreason⟩ := ApiFailure.isAlreadyExists_iff.1 htaken
      rw [ofApi_of_isAlreadyExists htaken]
      simp [isNotFound, isAlreadyExists, retryable, ApiFailure.isNotFound,
        ApiFailure.isAlreadyExists, ApiFailure.retryable, hcode, hreason]
    | false =>
      rw [ofApi_of_neither hfound htaken]
      simp

/-- The server refuses to make an object, whose name is taken: a wait gives up if the object is
named, and tries again if it is not. -/
theorem takenName_retryable :
    let why := ApiFailure.refused
      { status := "Failure", message := "taken", reason := "AlreadyExists", code := 409 }
    (ofApi "service" "echo-same-node" why).isAlreadyExists = true ∧
      (api why).isAlreadyExists = true ∧
      (ofApi "service" "echo-same-node" why).retryable = false ∧ (api why).retryable = true := by
  decide

end Failure

end Reachability
