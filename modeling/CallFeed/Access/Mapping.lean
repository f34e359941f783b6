/-
  CallFeed — written mappings from texts to lists of texts.

  A mapping is written as an object in braces whose members are a text, a colon and
  a list of texts in brackets.

  * `Mapping.tokens` is the one way to write a mapping in tokens;
  * `Mapping.ofTokens?` reads it back: `ofTokens?_tokens` and
    `eq_tokens_of_ofTokens?` together say that it accepts exactly what `tokens`
    writes (`ofTokens?_eq_some_iff`);
  * `Mapping.read` reads a mapping from its text.
-/
import CallFeed.Access.Token

namespace CallFeed.Access

/-- The members of a written mapping in their order; a name may occur again. -/
abbrev Mapping := List (List Char × List (List Char))

namespace Mapping

/-! ## Writing -/

/-- The tokens of the values of a member, from the one after the opening bracket on. -/
def valueTokens : List (List Char) → List Token
  | [] => [.closeBracket]
  | [v] => [.text v, .closeBracket]
  | v :: vs => .text v :: .comma :: valueTokens vs

/-- The tokens of the members, from the first one's name on. -/
def memberTokens : Mapping → List Token
  | [] => [.closeBrace]
  | [(k, vs)] => .text k :: .colon :: .openBracket :: (valueTokens vs ++ [.closeBrace])
  | (k, vs) :: m => .text k :: .colon :: .openBracket :: (valueTokens vs ++ .comma :: memberTokens m)

/-- The tokens of a mapping. -/
def tokens (m : Mapping) : List Token := .openBrace :: memberTokens m

/-! ## Reading -/

mutual

/-- The members that are written from the name of one on. -/
def members? : List Token → Option Mapping
  | .text k :: .colon :: .openBracket :: .closeBracket :: r =>
    (more? r).map fun m => (k, []) :: m
  | .text k :: .colon :: .openBracket :: r => (values? r).map fun p => (k, p.1) :: p.2
  | _ => none

/-- The values that are written from one on, and the members behind them. -/
def values? : List Token → Option (List (List Char) × Mapping)
  | .text v :: .comma :: r => (values? r).map fun p => (v :: p.1, p.2)
  | .text v :: .closeBracket :: r => (more? r).map fun m => ([v], m)
  | _ => none

/-- The members that are written behind one. -/
def more? : List Token → Option Mapping
  | [.closeBrace] => some []
  | .comma :: r => members? r
  | _ => none

end

/-- The mapping that a list of tokens writes. -/
def ofTokens? : List Token → Option Mapping
  | [.openBrace, .closeBrace] => some []
  | .openBrace :: r => members? r
  | _ => none

/-! ## Reading is the inverse of writing -/

/-- The tokens behind a member, when the members `m` follow it. -/
def restTokens : Mapping → List Token
  | [] => [.closeBrace]
  | row :: m => .comma :: memberTokens (row :: m)

theorem memberTokens_cons (k : List Char) (vs : List (List Char)) (m : Mapping) :
    memberTokens ((k, vs) :: m) =
      .text k :: .colon :: .openBracket :: (valueTokens vs ++ restTokens m) := by
  cases m <;> rfl

theorem values?_valueTokens (v : List Char) (vs : List (List Char)) (r : List Token) :
    values? (valueTokens (v :: vs) ++ r) = (more? r).map fun m => (v :: vs, m) := by
  induction vs generalizing v with
  | nil => rfl
  | cons w ws ih =>
    show (values? (valueTokens (w :: ws) ++ r)).map _ = _
    rw [ih]
    cases more? r <;> rfl

theorem members?_cons (k : List Char) (vs : List (List Char)) (r : List Token) :
    members? (.text k :: .colon :: .openBracket :: (valueTokens vs ++ r)) =
      (more? r).map fun m => (k, vs) :: m := by
  cases vs with
  | nil => rfl
  | cons v vs =>
    have h : members? (.text k :: .colon :: .openBracket :: (valueTokens (v :: vs) ++ r)) =
        (values? (valueTokens (v :: vs) ++ r)).map fun p => (k, p.1) :: p.2 := by
      cases vs <;> rfl
    rw [h, values?_valueTokens]
    cases more? r <;> rfl

theorem more?_restTokens (m : Mapping) : more? (restTokens m) = some m := by
  induction m with
  | nil => rfl
  | cons row m ih =>
    show members? (memberTokens (row :: m)) = _
    rw [memberTokens_cons, members?_cons, ih]
    rfl

theorem ofTokens?_tokens (m : Mapping) : ofTokens? (tokens m) = some m := by
  cases m with
  | nil => rfl
  | cons row m =>
    obtain ⟨k, vs⟩ := row
    have h : ofTokens? (tokens ((k, vs) :: m)) = members? (memberTokens ((k, vs) :: m)) := by
      rw [tokens, memberTokens_cons]
      rfl
    rw [h, memberTokens_cons, members?_cons, more?_restTokens]
    rfl

mutual

theorem eq_of_members? {ts : List Token} {m : Mapping} (h : members? ts = some m) :
    ∃ k vs m', m = (k, vs) :: m' ∧ ts = memberTokens m := by
  match ts, h with
  | .text k :: .colon :: .openBracket :: .closeBracket :: r, h =>
    obtain ⟨m', hm, rfl⟩ := Option.map_eq_some_iff.1 h
    refine ⟨k, [], m', rfl, ?_⟩
    rw [memberTokens_cons, eq_of_more? hm]
    rfl
  | .text k :: .colon :: .openBracket :: .text v :: r, h =>
    obtain ⟨p, hp, rfl⟩ := Option.map_eq_some_iff.1 h
    refine ⟨k, p.1, p.2, rfl, ?_⟩
    rw [memberTokens_cons, eq_of_values? hp]

theorem eq_of_values? {ts : List Token} {p : List (List Char) × Mapping}
    (h : values? ts = some p) : ts = valueTokens p.1 ++ restTokens p.2 := by
  match ts, h with
  | .text v :: .comma :: r, h =>
    obtain ⟨q, hq, rfl⟩ := Option.map_eq_some_iff.1 h
    have hr := eq_of_values? hq
    have hne : q.1 ≠ [] := by
      intro h0
      rw [h0] at hr
      rw [hr] at hq
      cases hq
    obtain ⟨w, ws, hw⟩ := List.exists_cons_of_ne_nil hne
    rw [hr, hw]
    rfl
  | .text v :: .closeBracket :: r, h =>
    obtain ⟨m, hm, rfl⟩ := Option.map_eq_some_iff.1 h
    rw [eq_of_more? hm]
    rfl

theorem eq_of_more? {ts : List Token} {m : Mapping} (h : more? ts = some m) :
    ts = restTokens m := by
  match ts, h with
  | [.closeBrace], h =>
    obtain rfl := Option.some.inj h
    rfl
  | .comma :: r, h =>
    obtain ⟨k, vs, m', rfl, hr⟩ := eq_of_members? (h : members? r = some m)
    rw [hr]
    rfl

end

theorem eq_tokens_of_ofTokens? {ts : List Token} {m : Mapping} (h : ofTokens? ts = some m) :
    ts = tokens m := by
  match ts, h with
  | [.openBrace, .closeBrace], h =>
    obtain rfl := Option.some.inj h
    rfl
  | .openBrace :: .text k :: r, h =>
    obtain ⟨k', vs, m', rfl, hr⟩ := eq_of_members? (h : members? (.text k :: r) = some m)
    rw [hr, tokens]

/-- A list of tokens is read as a mapping just if it is what the mapping is written in. -/
theorem ofTokens?_eq_some_iff {ts : List Token} {m : Mapping} :
    ofTokens? ts = some m ↔ ts = tokens m :=
  ⟨eq_tokens_of_ofTokens?, fun h => h ▸ ofTokens?_tokens m⟩

/-! ## Texts -/

/-- The mapping that a text writes. -/
def read (s : String) : Option Mapping :=
  (Token.read s.toList).bind ofTokens?

end Mapping

end CallFeed.Access
