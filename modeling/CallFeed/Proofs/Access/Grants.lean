/-
  CallFeed — what an access list grants, said of the texts that it is made from.

  * `IsEntry`: of several rows of a consumer the last one is its entry; a mapping, in which each
    consumer has one row, has that row for an entry (`isEntry_iff_mem`);
  * `Says` is what the text of a pattern says of a method, without cutting either of them
    (`Pattern.read_covers_iff_says`);
  * `grants_as_written`: a method is granted to a consumer just when a text in the consumer's
    entry says so.
-/
import CallFeed.Access.List
import Mathlib.Data.List.Induction
import Mathlib.Data.List.Nodup

namespace CallFeed

/-! ## Rows -/

/-- The value of the last row of a key. -/
def IsEntry {α : Type} (rows : List (String × α)) (key : String) (value : α) : Prop :=
  ∃ before after, rows = before ++ (key, value) :: after ∧ key ∉ after.map Prod.fst

section
variable {α : Type} {rows : List (String × α)} {row : String × α} {key : String} {value : α}

/-- A row with others before and behind it is the last one, or the last one is behind it. -/
theorem concat_eq_append_cons {last : String × α} {before after : List (String × α)} :
    rows ++ [last] = before ++ row :: after ↔
      (rows = before ∧ last = row ∧ after = []) ∨
        ∃ rest, after = rest ++ [last] ∧ rows = before ++ row :: rest := by
  constructor
  · intro hrows
    rcases List.eq_nil_or_concat' after with rfl | ⟨rest, x, rfl⟩
    · obtain ⟨hbefore, hlast⟩ := List.append_inj' hrows rfl
      exact Or.inl ⟨hbefore, (List.cons.inj hlast).1, rfl⟩
    · rw [← List.cons_append, ← List.append_assoc] at hrows
      obtain ⟨hbefore, hlast⟩ := List.append_inj' hrows rfl
      exact Or.inr ⟨rest, by rw [hlast], hbefore⟩
  · rintro (⟨rfl, rfl, rfl⟩ | ⟨rest, rfl, rfl⟩)
    · rfl
    · simp

/-- The last row is the entry of its key; every other key has its entry before it. -/
theorem isEntry_concat :
    IsEntry (rows ++ [row]) key value ↔
      if key = row.1 then value = row.2 else IsEntry rows key value := by
  unfold IsEntry
  simp only [concat_eq_append_cons]
  split
  · rename_i hkey
    subst hkey
    constructor
    · rintro ⟨before, after, ⟨-, hrow, -⟩ | ⟨rest, rfl, -⟩, hlast⟩
      · exact (congrArg Prod.snd hrow).symm
      · simp at hlast
    · rintro rfl
      exact ⟨rows, [], Or.inl ⟨rfl, rfl, rfl⟩, by simp⟩
  · rename_i hkey
    constructor
    · rintro ⟨before, after, ⟨-, hrow, -⟩ | ⟨rest, rfl, hrows⟩, hlast⟩
      · exact absurd (congrArg Prod.fst hrow).symm hkey
      · exact ⟨before, rest, hrows, fun hmem => hlast (by simpa using Or.inl hmem)⟩
    · rintro ⟨before, after, hrows, hlast⟩
      exact ⟨before, after ++ [row], Or.inr ⟨after, rfl, hrows⟩, by simpa [hkey] using hlast⟩

theorem Table.get?_ofRows_iff :
    (Table.ofRows rows).get? key = some value ↔ IsEntry rows key value := by
  induction rows using List.reverseRecOn with
  | nil => simp [Table.ofRows, Table.empty, Table.get?, Table.lookupRows, IsEntry]
  | append_singleton rows row ih =>
    have hput : Table.ofRows (rows ++ [row]) = (Table.ofRows rows).put row.1 row.2 := by
      simp [Table.ofRows]
    rw [hput, Table.get?_put, isEntry_concat]
    split
    · rw [Option.some.injEq, eq_comm]
    · exact ih

/-- In a mapping every row is the entry of its key. -/
theorem isEntry_iff_mem (hd : (rows.map Prod.fst).Nodup) :
    IsEntry rows key value ↔ (key, value) ∈ rows := by
  constructor
  · rintro ⟨before, after, rfl, -⟩
    simp
  · intro hmem
    obtain ⟨before, after, rfl⟩ := List.append_of_mem hmem
    refine ⟨before, after, rfl, ?_⟩
    rw [List.map_append, List.map_cons, List.nodup_append] at hd
    exact (List.nodup_cons.1 hd.2.1).1

end

/-! ## Patterns -/

/-- What the text of a pattern says of a method. -/
inductive Says : String → String → Prop
  /-- A text names the method of just that text. -/
  | verbatim (method : String) : Says method method
  /-- A service with a star names every method with a name on that service. -/
  | onService {service name : String} : service ≠ "" → name ≠ "" → '/' ∉ name.toList →
      Says (service ++ "/*") (service ++ "/" ++ name)

theorem Access.Pattern.read_covers_iff_says {text method : String} :
    (Access.Pattern.read text).covers method = true ↔ Says text method := by
  rw [Access.Pattern.read_covers_iff]
  constructor
  · rintro (rfl | ⟨service, name, hservice, rfl, rfl, hname, hslash⟩)
    · exact .verbatim text
    · exact .onService hservice hname hslash
  · rintro (_ | ⟨hservice, hname, hslash⟩)
    · exact Or.inl rfl
    · exact Or.inr ⟨_, _, hservice, rfl, rfl, hname, hslash⟩

/-- Of a method on a service a text says something if it is that of the method, or if it names all
    methods of just that service. -/
theorem Says.on_service {text service name : String} (hs : Says text (service ++ "/" ++ name))
    (hslash : '/' ∉ name.toList) : text = service ++ "/" ++ name ∨ text = service ++ "/*" := by
  generalize hm : service ++ "/" ++ name = method at hs
  cases hs with
  | verbatim => exact Or.inl rfl
  | @onService service' name' _ _ hslash' =>
    -- a text is cut in one way at its last slash
    have hcut := @Text.cutLast_append '/' service.toList name.toList hslash
    have hcut' := @Text.cutLast_append '/' service'.toList name'.toList hslash'
    have hlist : service.toList ++ '/' :: name.toList = service'.toList ++ '/' :: name'.toList := by
      simpa using congrArg String.toList hm
    rw [hlist, hcut'] at hcut
    obtain rfl := String.toList_inj.1 (Prod.mk.inj (Option.some.inj hcut)).1
    exact Or.inr rfl

/-! ## The list -/

namespace AccessList

/-- A text stands in the entry of a consumer. -/
def Lists (rows : List (String × List String)) (consumer text : String) : Prop :=
  ∃ texts, IsEntry rows consumer texts ∧ text ∈ texts

/-- A text in the entry of a consumer says that it may call a method. -/
def Granted (rows : List (String × List String)) (consumer method : String) : Prop :=
  ∃ text, Lists rows consumer text ∧ Says text method

theorem get?_ofRows (rows : List (String × List String)) (consumer : String) :
    (ofRows rows).entries.get? consumer =
      ((Table.ofRows rows).get? consumer).map (·.map Access.Pattern.read) :=
  Table.get?_mapValues _ _ _

theorem grants_iff {rows : List (String × List String)} {consumer method : String} :
    (ofRows rows).grants consumer method = true ↔ Granted rows consumer method := by
  rw [grants, get?_ofRows]
  cases hget : (Table.ofRows rows).get? consumer with
  | none =>
    constructor
    · rintro ⟨⟩
    · rintro ⟨text, ⟨texts, hentry, -⟩, -⟩
      cases hget.symm.trans (Table.get?_ofRows_iff.2 hentry)
  | some texts =>
    have hentry := Table.get?_ofRows_iff.1 hget
    simp only [Option.map_some, List.any_map, List.any_eq_true, Function.comp_apply,
      Access.Pattern.read_covers_iff_says]
    constructor
    · rintro ⟨text, hmem, hsays⟩
      exact ⟨text, ⟨texts, hentry, hmem⟩, hsays⟩
    · rintro ⟨text, ⟨texts', hentry', hmem⟩, hsays⟩
      obtain rfl := Option.some.inj (hget.symm.trans (Table.get?_ofRows_iff.2 hentry'))
      exact ⟨text, hmem, hsays⟩

/-- **An access list grants what its text says.** A method is granted to a consumer just when a text
    in the consumer's entry is that of the method, or is a service with a star while the method
    has a name on that service; the check lets just those calls through, and refuses every other
    with the names of the consumer and the method. What stands in the entries of others does not
    matter, nor in which order or how often the texts stand in the entry; and a method on a service is
    granted by a text for itself or for that service only. -/
theorem grants_as_written (rows : List (String × List String)) (consumer method : String) :
    ((ofRows rows).grants consumer method = true ↔ Granted rows consumer method) ∧
    ((ofRows rows).check consumer method = .ok () ↔ Granted rows consumer method) ∧
    (¬ Granted rows consumer method →
      (ofRows rows).check consumer method = .error (.permissionDenied consumer method)) ∧
    (∀ rows', (∀ text, Lists rows' consumer text ↔ Lists rows consumer text) →
      (ofRows rows').grants consumer method = (ofRows rows).grants consumer method) ∧
    ∀ service name, method = service ++ "/" ++ name → '/' ∉ name.toList →
      (ofRows rows).grants consumer method = true →
        Lists rows consumer method ∨ Lists rows consumer (service ++ "/*") := by
  refine ⟨grants_iff, ?_, ?_, ?_, ?_⟩
  · rw [← grants_iff]
    unfold check
    split <;> simp_all
  · intro hno
    rw [← grants_iff] at hno
    exact if_neg hno
  · intro rows' hsame
    rw [Bool.eq_iff_iff, grants_iff, grants_iff]
    simp only [Granted, hsame]
  · rintro service name rfl hslash hgrants
    obtain ⟨text, hlists, hsays⟩ := grants_iff.1 hgrants
    rcases hsays.on_service hslash with rfl | rfl
    · exact Or.inl hlists
    · exact Or.inr hlists

end AccessList

end CallFeed
