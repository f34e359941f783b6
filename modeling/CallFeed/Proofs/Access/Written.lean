/-
  CallFeed — access lists as JSON documents.

  * `Mapping.json` is the object that a mapping is written as. What spells the tokens of a
    mapping writes its object (`writes_of_spells`), and the other way round
    (`spells_of_document`): the blanks between two tokens belong to the sign before or behind
    them;
  * `AccessList.Same`: two lists have the same entries, hence they decide alike;
  * `AccessList.read_as_written`: an access list is read from a text just if the text is an
    object whose values are lists of texts, and it is the list of the last members.
-/
import CallFeed.Proofs.Access.Grammar
import CallFeed.Proofs.Access.Grants

namespace CallFeed

namespace Access

/-- The object that a mapping is written as. -/
def Mapping.json (m : Mapping) : Json :=
  .object (m.map fun row => (row.1, .array (row.2.map .text)))

/-! ## From documents to tokens -/

/-- A sign with blanks spells its token. -/
theorem Spells.cons_sign {c : Char} {k r : List Char} {t : Token} {ts : List Token}
    (ht : t.sign? = some c) (hk : Sign c k) (hr : Spells r ts) : Spells (k ++ r) (t :: ts) := by
  obtain ⟨hb, hb'⟩ := hk
  rw [List.append_assoc, List.cons_append]
  exact .blank hb (.sign ht (.blank hb' hr))

theorem quoted_of_writes {w s : List Char} (h : Writes w (.text s)) : Quoted w s := by
  cases h
  assumption

theorem spells_elements {w r v : List Char} {vs : List (List Char)} {ts : List Token}
    (h : WritesElements w ((v :: vs).map .text)) (hr : Spells r (.closeBracket :: ts)) :
    Spells (w ++ r) (Mapping.valueTokens (v :: vs) ++ ts) := by
  induction vs generalizing w v with
  | nil =>
    cases h with
    | one hw => exact .text (quoted_of_writes hw) hr
    | more _ _ hrest => cases hrest
  | cons v' vs ih =>
    cases h with
    | more hw hk hrest =>
      rw [List.append_assoc, List.append_assoc]
      exact .text (quoted_of_writes hw) (.cons_sign rfl hk (ih hrest))

theorem spells_array {w r : List Char} {vs : List (List Char)} {ts : List Token}
    (h : Writes w (.array (vs.map .text))) (hr : Spells r ts) :
    Spells (w ++ r) (.openBracket :: (Mapping.valueTokens vs ++ ts)) := by
  cases vs with
  | nil =>
    cases h with
    | emptyArray ho hc =>
      rw [List.append_assoc]
      exact .cons_sign rfl ho (.cons_sign rfl hc hr)
    | array _ helems _ => cases helems
  | cons v vs =>
    cases h with
    | array ho helems hc =>
      rw [List.append_assoc, List.append_assoc]
      exact .cons_sign rfl ho (spells_elements helems (.cons_sign rfl hc hr))

theorem spells_members {w r : List Char} {row : List Char × List (List Char)} {m : Mapping}
    (h : WritesMembers w ((row :: m).map fun row => (row.1, .array (row.2.map .text))))
    (hr : Spells r [.closeBrace]) : Spells (w ++ r) (Mapping.memberTokens (row :: m)) := by
  induction m generalizing w row with
  | nil =>
    cases h with
    | one hn hk hw =>
      rw [List.append_assoc, List.append_assoc, Mapping.memberTokens_cons]
      exact .text hn (.cons_sign rfl hk (spells_array hw hr))
    | more _ _ _ _ hrest => cases hrest
  | cons row' m ih =>
    cases h with
    | more hn hk hw hk' hrest =>
      simp only [List.append_assoc]
      rw [Mapping.memberTokens_cons]
      exact .text hn (.cons_sign rfl hk (spells_array hw (.cons_sign rfl hk' (ih hrest))))

/-- A document of a mapping spells the tokens of the mapping. -/
theorem spells_of_document {cs : List Char} {m : Mapping} (h : Document cs m.json) :
    Spells cs m.tokens := by
  obtain ⟨hb, hw, hb'⟩ := h
  have hend : Spells _ [] := .blank hb' .nil
  rw [List.append_nil] at hend
  rw [List.append_assoc]
  refine .blank hb ?_
  cases m with
  | nil =>
    cases hw with
    | emptyObject ho hc =>
      rw [List.append_assoc]
      exact .cons_sign rfl ho (.cons_sign rfl hc hend)
    | object _ hms _ => cases hms
  | cons row m =>
    cases hw with
    | object ho hms hc =>
      rw [List.append_assoc, List.append_assoc]
      exact .cons_sign rfl ho (spells_members hms (.cons_sign rfl hc hend))

/-! ## From tokens to documents -/

/-- Some tokens that are spelled without blanks before the first. -/
inductive Tight : List Char → List Token → Prop
  | nil : Tight [] []
  | sign {c : Char} {r : List Char} {t : Token} {ts : List Token} : t.sign? = some c →
      Spells r ts → Tight (c :: r) (t :: ts)
  | text {w r s : List Char} {ts : List Token} : Quoted w s → Spells r ts →
      Tight (w ++ r) (.text s :: ts)

theorem Tight.spells {cs : List Char} {ts : List Token} (h : Tight cs ts) : Spells cs ts := by
  cases h with
  | nil => exact .nil
  | sign hc hr => exact .sign hc hr
  | text hq hr => exact .text hq hr

theorem Spells.tight {cs : List Char} {ts : List Token} (h : Spells cs ts) :
    ∃ b r, cs = b ++ r ∧ Blank b ∧ Tight r ts := by
  induction h with
  | nil => exact ⟨[], [], rfl, by simp [Blank], .nil⟩
  | @blank b _ _ hb _ ih =>
    obtain ⟨b', r, rfl, hb', hr⟩ := ih
    refine ⟨b ++ b', r, (List.append_assoc _ _ _).symm, fun c hc => ?_, hr⟩
    exact (List.mem_append.1 hc).elim (hb c) (hb' c)
  | sign hc hr => exact ⟨[], _, rfl, by simp [Blank], .sign hc hr⟩
  | text hq hr => exact ⟨[], _, rfl, by simp [Blank], .text hq hr⟩

/-- A sign has the blanks before and behind it. -/
theorem Spells.sign_of_cons {c : Char} {cs : List Char} {t : Token} {ts : List Token}
    (h : Spells cs (t :: ts)) (ht : t.sign? = some c) :
    ∃ k r, cs = k ++ r ∧ Sign c k ∧ Tight r ts := by
  obtain ⟨b, r, rfl, hb, hr⟩ := h.tight
  cases hr with
  | sign hc hr =>
    obtain rfl := Option.some.inj (ht.symm.trans hc)
    obtain ⟨b', r', rfl, hb', hr'⟩ := hr.tight
    exact ⟨b ++ c :: b', r', by simp, .mk hb hb', hr'⟩
  | text => cases ht

theorem Tight.quoted_of_cons {cs s : List Char} {ts : List Token} (h : Tight cs (.text s :: ts)) :
    ∃ w r, cs = w ++ r ∧ Quoted w s ∧ Spells r ts := by
  cases h with
  | sign hc => cases hc
  | text hq hr => exact ⟨_, _, rfl, hq, hr⟩

theorem elements_of_tight {cs v : List Char} {vs : List (List Char)} {ts : List Token}
    (h : Tight cs (Mapping.valueTokens (v :: vs) ++ ts)) :
    ∃ w k r, cs = w ++ k ++ r ∧ WritesElements w ((v :: vs).map .text) ∧ Sign ']' k ∧
      Tight r ts := by
  induction vs generalizing cs v with
  | nil =>
    obtain ⟨w, r, rfl, hq, hr⟩ := h.quoted_of_cons
    obtain ⟨k, r', rfl, hk, hr'⟩ := hr.sign_of_cons rfl
    exact ⟨w, k, r', (List.append_assoc _ _ _).symm, .one (.text hq), hk, hr'⟩
  | cons v' vs ih =>
    obtain ⟨w, r, rfl, hq, hr⟩ := h.quoted_of_cons
    obtain ⟨k, r', rfl, hk, hr'⟩ := hr.sign_of_cons rfl
    obtain ⟨w', k', r'', rfl, helems, hk', hr''⟩ := ih hr'
    exact ⟨w ++ k ++ w', k', r'', by simp, .more (.text hq) hk helems, hk', hr''⟩

theorem array_of_spells {cs : List Char} {vs : List (List Char)} {ts : List Token}
    (h : Spells cs (.openBracket :: (Mapping.valueTokens vs ++ ts))) :
    ∃ w r, cs = w ++ r ∧ Writes w (.array (vs.map .text)) ∧ Tight r ts := by
  obtain ⟨o, r, rfl, ho, hr⟩ := h.sign_of_cons rfl
  cases vs with
  | nil =>
    obtain ⟨k, r', rfl, hk, hr'⟩ := hr.spells.sign_of_cons rfl
    exact ⟨o ++ k, r', (List.append_assoc _ _ _).symm, .emptyArray ho hk, hr'⟩
  | cons v vs =>
    obtain ⟨w, k, r', rfl, helems, hk, hr'⟩ := elements_of_tight hr
    exact ⟨o ++ w ++ k, r', by simp, .array ho helems hk, hr'⟩

theorem members_of_tight {cs : List Char} {row : List Char × List (List Char)} {m : Mapping}
    (h : Tight cs (Mapping.memberTokens (row :: m))) :
    ∃ w k, cs = w ++ k ∧ Sign '\x7d' k ∧
      WritesMembers w ((row :: m).map fun row => (row.1, .array (row.2.map .text))) := by
  induction m generalizing cs row with
  | nil =>
    rw [Mapping.memberTokens_cons] at h
    obtain ⟨n, r, rfl, hn, hr⟩ := h.quoted_of_cons
    obtain ⟨k, r', rfl, hk, hr'⟩ := hr.sign_of_cons rfl
    obtain ⟨w, r'', rfl, hw, hr''⟩ := array_of_spells hr'.spells
    obtain ⟨c, _, rfl, hc, ⟨⟩⟩ := hr''.spells.sign_of_cons rfl
    exact ⟨n ++ k ++ w, c, by simp, hc, .one hn hk hw⟩
  | cons row' m ih =>
    rw [Mapping.memberTokens_cons] at h
    obtain ⟨n, r, rfl, hn, hr⟩ := h.quoted_of_cons
    obtain ⟨k, r', rfl, hk, hr'⟩ := hr.sign_of_cons rfl
    obtain ⟨w, r'', rfl, hw, hr''⟩ := array_of_spells hr'.spells
    obtain ⟨k', r₃, rfl, hk', hr₃⟩ := hr''.spells.sign_of_cons rfl
    obtain ⟨w', c, rfl, hc, hms⟩ := ih hr₃
    exact ⟨n ++ k ++ w ++ k' ++ w', c, by simp, hc, .more hn hk hw hk' hms⟩

/-- What spells the tokens of a mapping writes its object. -/
theorem writes_of_spells {cs : List Char} {m : Mapping} (h : Spells cs m.tokens) :
    Writes cs m.json := by
  obtain ⟨o, r, rfl, ho, hr⟩ := h.sign_of_cons rfl
  cases m with
  | nil =>
    obtain ⟨c, _, rfl, hc, ⟨⟩⟩ := hr.spells.sign_of_cons rfl
    rw [List.append_nil]
    exact .emptyObject ho hc
  | cons row m =>
    obtain ⟨w, c, rfl, hc, hms⟩ := members_of_tight hr
    rw [← List.append_assoc]
    exact .object ho hms hc

/-- A mapping is read from a text just if the text is a document of it. -/
theorem Mapping.read_eq_some_iff {text : String} {m : Mapping} :
    Mapping.read text = some m ↔ Document text.toList m.json := by
  have htokens : Mapping.read text = some m ↔ Token.read text.toList = some m.tokens := by
    simp [Mapping.read, Option.bind_eq_some_iff, ofTokens?_eq_some_iff]
  rw [htokens, Access.read_eq_some_iff]
  constructor
  · intro h
    have hdoc : Document ([] ++ text.toList ++ []) m.json :=
      .mk (by simp [Blank]) (writes_of_spells h) (by simp [Blank])
    rwa [List.append_nil] at hdoc
  · exact spells_of_document

end Access

theorem Table.mem_keys_iff {α : Type} {t : Table α} {key : String} :
    key ∈ t.rows.map Prod.fst ↔ (t.get? key).isSome = true := by
  unfold Table.get?
  induction t.rows with
  | nil => simp [lookupRows]
  | cons row rows ih =>
    rw [List.map_cons, List.mem_cons, lookupRows, ih]
    by_cases hk : row.1 = key
    · simp [hk]
    · simp [hk, Ne.symm hk]

namespace AccessList

open Access (Document Json Mapping)

/-- The object whose members are these consumers, each with the list of its texts. -/
def json (rows : List (String × List String)) : Json :=
  .object (rows.map fun row => (row.1.toList, .array (row.2.map fun s => .text s.toList)))

/-- The text is an object whose members are these rows, in whatever way it is written. -/
def Written (text : String) (rows : List (String × List String)) : Prop :=
  Document text.toList (json rows)

/-- Nobody can tell the lists from each other. -/
structure Same (a b : AccessList) : Prop where
  entries : ∀ consumer, a.entries.get? consumer = b.entries.get? consumer
  consumers : a.consumers = b.consumers
  grants : ∀ consumer method, a.grants consumer method = b.grants consumer method
  check : ∀ consumer method, a.check consumer method = b.check consumer method

theorem same_of_entries {a b : AccessList}
    (h : ∀ consumer, a.entries.get? consumer = b.entries.get? consumer) : Same a b := by
  have hgrants : ∀ consumer method, a.grants consumer method = b.grants consumer method :=
    fun consumer method => by rw [grants, grants, h]
  refine ⟨h, ?_, hgrants, fun consumer method => by rw [check, check, hgrants]⟩
  have hkeys : (a.entries.rows.map Prod.fst).Perm (b.entries.rows.map Prod.fst) :=
    (List.perm_ext_iff_of_nodup a.entries.distinct b.entries.distinct).2 fun key => by
      rw [Table.mem_keys_iff, Table.mem_keys_iff, h]
  simpa [consumers, Table.size] using hkeys.length_eq

/-- Rows with the same entries make the same list. -/
theorem same_ofRows {rows rows' : List (String × List String)}
    (h : ∀ consumer texts, IsEntry rows consumer texts ↔ IsEntry rows' consumer texts) :
    Same (ofRows rows) (ofRows rows') := by
  refine same_of_entries fun consumer => ?_
  rw [get?_ofRows, get?_ofRows]
  congr 1
  ext texts
  rw [Table.get?_ofRows_iff, Table.get?_ofRows_iff, h]

/-- A list is read from a text just if the text is written in its rows. -/
theorem read_eq_ok_iff {text : String} {a : AccessList} :
    read text = .ok a ↔ ∃ rows, Written text rows ∧ a = ofRows rows := by
  have hjson : ∀ m, json (rowsOf m) = Mapping.json m := by
    intro m
    simp [json, rowsOf, Mapping.json, Function.comp_def]
  constructor
  · intro h
    unfold read at h
    split at h
    · rename_i m hm
      cases h
      refine ⟨rowsOf m, ?_, rfl⟩
      rw [Written, hjson]
      exact Mapping.read_eq_some_iff.1 hm
    · cases h
  · rintro ⟨rows, hw, rfl⟩
    -- the rows are those of the mapping of their characters
    obtain ⟨m, rfl⟩ : ∃ m, rowsOf m = rows :=
      ⟨rows.map fun row => (row.1.toList, row.2.map String.toList), by
        simp [rowsOf, Function.comp_def]⟩
    rw [Written, hjson] at hw
    rw [read, Mapping.read_eq_some_iff.2 hw]

/-- **An access list is what its text says.** A text makes an access list just if it is a JSON
    document of an object in which the value of every member is a list of texts, and the
    list is that of its members; any other text is refused as no access list. If a
    mapping gives to each consumer the texts of its last member, the list cannot be told from
    that of the mapping: it has the same entries and as many consumers, and lets the
    same calls through. In particular a mapping that is written down in any way whatever, its
    rows in any order, is read back. -/
theorem read_as_written (text : String) :
    (∀ a, read text = .ok a ↔ ∃ rows, Written text rows ∧ a = ofRows rows) ∧
    ((∀ rows, ¬ Written text rows) → ∃ detail, read text = .error (.accessList detail)) ∧
    (∀ rows mapping, Written text rows → (mapping.map Prod.fst).Nodup →
      (∀ consumer texts, (consumer, texts) ∈ mapping ↔ IsEntry rows consumer texts) →
      ∃ a, read text = .ok a ∧ Same a (ofRows mapping)) ∧
    (∀ rows mapping, Written text rows → (mapping.map Prod.fst).Nodup → rows.Perm mapping →
      ∃ a, read text = .ok a ∧ Same a (ofRows mapping)) := by
  have hmapping : ∀ rows mapping, Written text rows → (mapping.map Prod.fst).Nodup →
      (∀ consumer texts, (consumer, texts) ∈ mapping ↔ IsEntry rows consumer texts) →
      ∃ a, read text = .ok a ∧ Same a (ofRows mapping) := by
    intro rows mapping hw hd hentries
    refine ⟨ofRows rows, read_eq_ok_iff.2 ⟨rows, hw, rfl⟩, same_ofRows fun consumer texts => ?_⟩
    rw [isEntry_iff_mem hd, hentries]
  refine ⟨fun a => read_eq_ok_iff, fun hno => ?_, hmapping, fun rows mapping hw hd hperm => ?_⟩
  · cases hr : Mapping.read text with
    | none => exact ⟨_, by rw [read, hr]⟩
    | some m =>
      obtain ⟨rows, hw, -⟩ := read_eq_ok_iff.1 (show read text = .ok _ by rw [read, hr])
      exact absurd hw (hno rows)
  · refine hmapping rows mapping hw hd fun consumer texts => ?_
    have hd' : (rows.map Prod.fst).Nodup := (hperm.map Prod.fst).nodup_iff.2 hd
    rw [isEntry_iff_mem hd', hperm.mem_iff]

/-- A document with blanks, escapes, a surrogate pair and a member that comes twice. -/
def twice : String := " \x7b\x22\\ud83d\\uDE00\x22: [\x22\\/a\x22],\n\x22😀\x22:[]\x7d\t"

theorem read_as_written_twice :
    Written twice [("😀", ["/a"]), ("😀", [])] ∧
    ∃ a, read twice = .ok a ∧ Same a (ofRows [("😀", [])]) := by
  have hread : Mapping.read twice = some [(['😀'], [['/', 'a']]), (['😀'], [])] := by
    decide +kernel
  have hw : Written twice [("😀", ["/a"]), ("😀", [])] := Mapping.read_eq_some_iff.1 hread
  obtain ⟨-, -, hmapping, -⟩ := read_as_written twice
  refine ⟨hw, hmapping _ _ hw (by decide) fun consumer texts => ?_⟩
  have hlast := @isEntry_concat _ [("😀", ["/a"])] ("😀", []) consumer texts
  rw [List.singleton_append] at hlast
  rw [hlast, List.mem_singleton, Prod.mk.injEq]
  split
  · rename_i hconsumer
    exact and_iff_right hconsumer
  · rename_i hconsumer
    refine ⟨fun h => absurd h.1 hconsumer, ?_⟩
    rintro ⟨before, after, hrows, -⟩
    have hmem : (consumer, texts) ∈ [("😀", ["/a"])] := hrows ▸ by simp
    exact absurd (Prod.mk.inj (List.mem_singleton.1 hmem)).1 hconsumer

end AccessList

end CallFeed
