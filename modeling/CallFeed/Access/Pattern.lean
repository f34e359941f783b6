/-
  CallFeed — patterns of methods.

  A method is named by a service and a name, joined by a slash. A pattern is one
  method, or every method of one service.

  * `Pattern.read` takes a text whose last part is a star, after a service that is
    not empty, for the pattern of that service, and any other text for the pattern
    of the method of just that text;
  * `Pattern.covers` tells whether a method fits a pattern; `read_covers_iff` says
    what that means for the text of the pattern.
-/
import CallFeed.Text.Blank

namespace CallFeed.Access

inductive Pattern where
  | exact (method : String)
  /-- Every method with a name on one service. -/
  | service (name : String)
  deriving DecidableEq, Repr

namespace Pattern

/-- The pattern that a text stands for. -/
def read (text : String) : Pattern :=
  match Text.cutLast '/' text.toList with
  | some (front, back) =>
    if back = ['*'] ∧ front ≠ [] then .service (String.ofList front) else .exact text
  | none => .exact text

/-- Whether a method fits the pattern. -/
def covers : Pattern → String → Bool
  | .exact m, method => m = method
  | .service s, method =>
    match Text.cutLast '/' method.toList with
    | some (front, back) => back ≠ [] && String.ofList front = s
    | none => false

/-! ## What patterns cover -/

/-- The pattern of a service covers its methods, and no others. -/
theorem service_covers_iff {service method : String} :
    (Pattern.service service).covers method = true ↔
      ∃ name : String, method = service ++ "/" ++ name ∧ name ≠ "" ∧ '/' ∉ name.toList := by
  rw [covers]
  constructor
  · intro h
    cases hc : Text.cutLast '/' method.toList with
    | none => simp [hc] at h
    | some p =>
      obtain ⟨front, back⟩ := p
      obtain ⟨hm, hb⟩ := Text.cutLast_eq_some_iff.1 hc
      simp only [hc, ne_eq, decide_not, Bool.and_eq_true, Bool.not_eq_eq_eq_not, Bool.not_true,
        decide_eq_false_iff_not, decide_eq_true_eq] at h
      refine ⟨String.ofList back, ?_, by simpa using h.1, by simpa using hb⟩
      rw [← h.2, ← String.toList_inj, hm]
      simp
  · rintro ⟨name, rfl, hn, hs⟩
    have hc : Text.cutLast '/' (service ++ "/" ++ name).toList =
        some (service.toList, name.toList) := by
      rw [Text.cutLast_eq_some_iff]
      exact ⟨by simp, hs⟩
    rw [hc]
    simpa using hn

/-- A text whose last part is a star, after a service, is read as the pattern of the
    service. -/
theorem read_star {service : String} (h : service ≠ "") :
    read (service ++ "/*") = .service service := by
  have hc : Text.cutLast '/' (service ++ "/*").toList = some (service.toList, ['*']) := by
    rw [Text.cutLast_eq_some_iff]
    exact ⟨by simp, by decide⟩
  rw [read, hc]
  simpa using h

/-- Any other text is read as the pattern of one method. -/
theorem read_eq_exact {text : String}
    (h : ∀ service : String, service ≠ "" → text ≠ service ++ "/*") : read text = .exact text := by
  rw [read]
  split
  · rename_i front back hc
    obtain ⟨ht, -⟩ := Text.cutLast_eq_some_iff.1 hc
    rw [if_neg]
    rintro ⟨rfl, hf⟩
    refine h (String.ofList front) (by simpa using hf) ?_
    rw [← String.toList_inj, ht]
    simp
  · rfl

/-- What a written pattern covers: the method of just that text, and, if the text is a
    service with a star, every method with a name on that service. -/
theorem read_covers_iff {text method : String} :
    (read text).covers method = true ↔
      text = method ∨
        ∃ service name : String, service ≠ "" ∧ text = service ++ "/*" ∧
          method = service ++ "/" ++ name ∧ name ≠ "" ∧ '/' ∉ name.toList := by
  by_cases h : ∃ service : String, service ≠ "" ∧ text = service ++ "/*"
  · obtain ⟨service, hs, rfl⟩ := h
    rw [read_star hs, service_covers_iff]
    constructor
    · rintro ⟨name, hm, hn⟩
      exact .inr ⟨service, name, hs, rfl, hm, hn⟩
    · rintro (rfl | ⟨service', name, -, ht, hm, hn⟩)
      · exact ⟨"*", by rw [String.append_assoc]; rfl, by decide, by decide⟩
      · obtain rfl : service = service' := by
          rw [← String.toList_inj] at ht ⊢
          simpa using ht
        exact ⟨name, hm, hn⟩
  · have h' : ∀ service : String, service ≠ "" → text ≠ service ++ "/*" :=
      fun service hs ht => h ⟨service, hs, ht⟩
    rw [read_eq_exact h', covers, decide_eq_true_eq]
    constructor
    · exact .inl
    · rintro (ht | ⟨service, name, hs, ht, -⟩)
      · exact ht
      · exact absurd ht (h' service hs)

end Pattern

end CallFeed.Access
