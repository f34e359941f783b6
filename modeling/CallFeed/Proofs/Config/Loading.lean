/-
  CallFeed — which variables give a configuration, and which fault the others have.

  * `Text.IsNumeral text n` are the numerals of a number, of whatever length, and a text counts
    just if it is one of a word (`Text.readCount_eq_some_iff`);
  * `Config.IsCount` is what a variable counts and `Config.IsMisread` how it is refused;
    `FirstMisread` is the refusal of the first variable that is refused;
  * `Loads` are the configurations that variables give, and `FaultOf` is the fault of variables
    that give none; `load_decides`: there is just the one or the other.
-/
import CallFeed.Config
import CallFeed.Proofs.Access.Written
import CallFeed.Proofs.Text.Cutting
import Mathlib.Data.Nat.Digits.Defs

namespace CallFeed

section
variable {ε α β : Type} {x : Except ε α} {k : α → Except ε β}

theorem Except.bind_eq_ok_iff {b : β} : x >>= k = .ok b ↔ ∃ a, x = .ok a ∧ k a = .ok b := by
  cases x <;> simp [bind, Except.bind]

theorem Except.bind_eq_error_iff {e : ε} :
    x >>= k = .error e ↔ x = .error e ∨ ∃ a, x = .ok a ∧ k a = .error e := by
  cases x <;> simp [bind, Except.bind]

end

/-! ## Numerals -/

namespace Text

/-- A numeral of the number: one or more decimal digits, the first of which counts most, with at
    most one plus sign in front and with blanks around it. -/
def IsNumeral (text : String) (n : Nat) : Prop :=
  ∃ sign ds, Trims text.toList (sign ++ ds.map Nat.digitChar) ∧ (sign = [] ∨ sign = ['+']) ∧
    ds ≠ [] ∧ (∀ d ∈ ds, d < 10) ∧ n = Nat.ofDigits 10 ds.reverse

theorem digitValue?_eq_some_iff {c : Char} {d : Nat} :
    digitValue? c = some d ↔ d < 10 ∧ c = Nat.digitChar d := by
  unfold digitValue?
  constructor
  · intro h
    split at h
    · rename_i hc
      have hlow : 48 ≤ c.toNat := hc.1
      have hhigh : c.toNat ≤ 57 := hc.2
      have hd : c.toNat - 48 = d := Option.some.inj h
      have hlt : d < 10 := by omega
      refine ⟨hlt, Char.toNat_inj.1 ?_⟩
      rw [Nat.toNat_digitChar_of_lt_ten hlt]
      omega
    · cases h
  · rintro ⟨hlt, rfl⟩
    have hc := Nat.toNat_digitChar_of_lt_ten hlt
    rw [if_pos]
    · rw [hc]
      exact congrArg some (Nat.add_sub_cancel_left 48 d)
    · refine ⟨show 48 ≤ (Nat.digitChar d).toNat from ?_,
        show (Nat.digitChar d).toNat ≤ 57 from ?_⟩ <;> omega

/-- Digits behind digits of the value `n` count less than all of these. -/
theorem digitsFrom_eq_some_iff {cs : List Char} {n m : Nat} :
    digitsFrom n cs = some m ↔ ∃ ds : List Nat, cs = ds.map Nat.digitChar ∧
      (∀ d ∈ ds, d < 10) ∧ m = Nat.ofDigits 10 ds.reverse + 10 ^ ds.length * n := by
  induction cs generalizing n with
  | nil => simp [digitsFrom, eq_comm]
  | cons c r ih =>
    rw [digitsFrom, Option.bind_eq_some_iff]
    -- one digit more
    have hstep : ∀ (d : Nat) ds, Nat.ofDigits 10 (d :: ds).reverse + 10 ^ (d :: ds).length * n =
        Nat.ofDigits 10 ds.reverse + 10 ^ ds.length * (10 * n + d) := by
      intro d ds
      rw [List.reverse_cons, Nat.ofDigits_append, Nat.ofDigits_singleton, List.length_reverse,
        List.length_cons]
      ring
    constructor
    · rintro ⟨d, hd, hr⟩
      obtain ⟨hlt, rfl⟩ := digitValue?_eq_some_iff.1 hd
      obtain ⟨ds, rfl, hds, rfl⟩ := ih.1 hr
      exact ⟨d :: ds, rfl, List.forall_mem_cons.2 ⟨hlt, hds⟩, (hstep d ds).symm⟩
    · rintro ⟨ds, hcs, hds, rfl⟩
      cases ds with
      | nil => cases hcs
      | cons d ds =>
        obtain ⟨rfl, rfl⟩ := List.cons.inj hcs
        obtain ⟨hlt, hds⟩ := List.forall_mem_cons.1 hds
        exact ⟨d, digitValue?_eq_some_iff.2 ⟨hlt, rfl⟩, ih.2 ⟨ds, rfl, hds, hstep d ds⟩⟩

theorem digits?_eq_some_iff {cs : List Char} {n : Nat} :
    digits? cs = some n ↔ ∃ ds : List Nat, cs = ds.map Nat.digitChar ∧ ds ≠ [] ∧
      (∀ d ∈ ds, d < 10) ∧ n = Nat.ofDigits 10 ds.reverse := by
  cases cs with
  | nil => simp [digits?, eq_comm]
  | cons c r =>
    rw [digits?, digitsFrom_eq_some_iff]
    refine exists_congr fun ds => and_congr_right fun hcs => ?_
    have hne : ds ≠ [] := by
      rintro rfl
      cases hcs
    simp [hne]

theorem dropPlus_map_digitChar {ds : List Nat} (hds : ∀ d ∈ ds, d < 10) :
    dropPlus (ds.map Nat.digitChar) = ds.map Nat.digitChar := by
  unfold dropPlus
  split
  · rename_i r hplus
    -- a plus sign is no digit
    obtain ⟨d, hd, hc⟩ := List.mem_map.1 (hplus ▸ List.mem_cons_self : '+' ∈ ds.map Nat.digitChar)
    have hdigit := Nat.toNat_digitChar_of_lt_ten (hds d hd)
    rw [hc] at hdigit
    have hsign : '+'.toNat = 43 := rfl
    omega
  · rfl

theorem dropPlus_eq (cs : List Char) :
    ∃ sign, cs = sign ++ dropPlus cs ∧ (sign = [] ∨ sign = ['+']) := by
  unfold dropPlus
  split
  · exact ⟨['+'], rfl, Or.inr rfl⟩
  · exact ⟨[], rfl, Or.inl rfl⟩

/-- A text counts just if it is a numeral of a word. -/
theorem readCount_eq_some_iff {text : String} {n : Nat} :
    readCount text = some n ↔ IsNumeral text n ∧ n < 2 ^ 64 := by
  have hword : decide (n ≤ maxWord) = true ↔ n < 2 ^ 64 := by
    rw [decide_eq_true_eq, maxWord]
    omega
  rw [readCount, Option.filter_eq_some_iff, hword, digits?_eq_some_iff]
  refine and_congr_left fun _ => ?_
  constructor
  · rintro ⟨ds, hcs, hds⟩
    obtain ⟨sign, hsplit, hsign⟩ := dropPlus_eq (trim text.toList)
    rw [hcs] at hsplit
    exact ⟨sign, ds, trim_eq_iff.1 hsplit, hsign, hds⟩
  · rintro ⟨sign, ds, htrim, hsign, hne, hlt, hn⟩
    refine ⟨ds, ?_, hne, hlt, hn⟩
    rw [htrim.trim_eq]
    rcases hsign with rfl | rfl
    · exact dropPlus_map_digitChar hlt
    · rfl

theorem readCount_le {text : String} {n : Nat} (hn : readCount text = some n) : n ≤ maxWord :=
  Nat.le_of_lt_succ (readCount_eq_some_iff.1 hn).2

end Text

/-! ## Counts -/

namespace Config

variable {vars vars' : Variables} {name : String} {least standard n : Nat} {f : ConfigFault}
  {c : Config}

/-- `n` is the count of a variable: the standard one, or the one that it is set to. -/
def IsCount (vars : Variables) (name : String) (least standard n : Nat) : Prop :=
  vars name = none ∧ n = standard ∨
    ∃ text, vars name = some text ∧ Text.readCount text = some n ∧ least ≤ n

/-- The text of a variable is no count, or too small a one. -/
def IsMisread (vars : Variables) (name : String) (least : Nat) (f : ConfigFault) : Prop :=
  ∃ text, vars name = some text ∧ f = .ofText name text ∧
    ∀ n, Text.readCount text = some n → n < least

theorem loadCount_eq_ok_iff :
    loadCount vars name least standard = .ok n ↔ IsCount vars name least standard n := by
  unfold loadCount IsCount
  cases hset : vars name with
  | none => simp [eq_comm]
  | some text =>
    cases hread : Text.readCount text with
    | none => simp [hread]
    | some m =>
      by_cases hm : least ≤ m
      · simp only [hread, hm, if_true, Except.ok.injEq, reduceCtorEq, false_and, false_or,
          Option.some.injEq, exists_eq_left']
        exact ⟨fun hn => ⟨hn, hn ▸ hm⟩, And.left⟩
      · simp only [hread, hm, if_false, reduceCtorEq, false_and, false_or, Option.some.injEq,
          exists_eq_left', false_iff]
        rintro ⟨rfl, hle⟩
        exact hm hle

theorem loadCount_eq_error_iff :
    loadCount vars name least standard = .error f ↔ IsMisread vars name least f := by
  unfold loadCount IsMisread
  cases hset : vars name with
  | none => simp
  | some text =>
    cases hread : Text.readCount text with
    | none => simp [hread, eq_comm]
    | some m =>
      by_cases hm : least ≤ m
      · simp [hm, hread]
      · simp [hm, hread, eq_comm, Nat.not_le.1 hm]

/-- A variable that is not misread counts, and the other way round. -/
theorem exists_loadCount_iff :
    (∃ n, loadCount vars name least standard = .ok n) ↔ ∀ f, ¬ IsMisread vars name least f := by
  simp only [← @loadCount_eq_error_iff vars name least standard]
  cases loadCount vars name least standard <;> simp

/-! ## Faults -/

/-- The variables of counts in the order in which they are read, with the least count of each. -/
def counts : List (String × Nat) :=
  [(inboundVariable, 1), (subscriberVariable, 1), (limitVariable, 0)]

/-- `f` is the fault of the first of these variables that is misread. -/
inductive FirstMisread (vars : Variables) (f : ConfigFault) : List (String × Nat) → Prop
  | here {name least vs} : IsMisread vars name least f → FirstMisread vars f ((name, least) :: vs)
  | later {name least vs} : (∀ g, ¬ IsMisread vars name least g) → FirstMisread vars f vs →
      FirstMisread vars f ((name, least) :: vs)

/-- `f` is the fault of the variables: there is no access list, or its text is none, or a count
    is misread, in this order. -/
inductive FaultOf (vars : Variables) : ConfigFault → Prop
  | missing : vars accessVariable = none → FaultOf vars (.missing accessVariable)
  | access {text g} : vars accessVariable = some text → (∀ rows, ¬ AccessList.Written text rows) →
      AccessList.read text = .error g → FaultOf vars (.ofText accessVariable g.message)
  | count {text rows f} : vars accessVariable = some text → AccessList.Written text rows →
      FirstMisread vars f counts → FaultOf vars f

theorem loadAccess_eq_ok_iff {a : AccessList} :
    loadAccess vars = .ok a ↔ ∃ text rows, vars accessVariable = some text ∧
      AccessList.Written text rows ∧ a = .ofRows rows := by
  unfold loadAccess
  cases hset : vars accessVariable with
  | none => simp
  | some text =>
    have hread := @AccessList.read_eq_ok_iff text a
    cases hr : AccessList.read text with
    | ok b =>
      rw [hr] at hread
      simpa [hr] using hread
    | error g =>
      rw [hr] at hread
      simpa [hr] using hread

theorem loadAccess_eq_error_iff :
    loadAccess vars = .error f ↔ vars accessVariable = none ∧ f = .missing accessVariable ∨
      ∃ text g, vars accessVariable = some text ∧ AccessList.read text = .error g ∧
        f = .ofText accessVariable g.message := by
  unfold loadAccess
  cases hset : vars accessVariable with
  | none => simp [eq_comm]
  | some text => cases hr : AccessList.read text <;> simp [hr, eq_comm]

theorem firstMisread_cons_iff {vs : List (String × Nat)} :
    FirstMisread vars f ((name, least) :: vs) ↔
      IsMisread vars name least f ∨ (∀ g, ¬ IsMisread vars name least g) ∧
        FirstMisread vars f vs := by
  constructor
  · intro h
    cases h with
    | here hm => exact Or.inl hm
    | later hnot hrest => exact Or.inr ⟨hnot, hrest⟩
  · rintro (hm | ⟨hnot, hrest⟩)
    · exact .here hm
    · exact .later hnot hrest

theorem FirstMisread.exists_misread {vs : List (String × Nat)} (h : FirstMisread vars f vs) :
    ∃ v ∈ vs, IsMisread vars v.1 v.2 f := by
  induction h with
  | here hm => exact ⟨_, List.mem_cons_self, hm⟩
  | later _ _ ih =>
    obtain ⟨v, hv, hm⟩ := ih
    exact ⟨v, List.mem_cons_of_mem _ hv, hm⟩

/-- A count is read before what is read with it. -/
theorem bind_loadCount_eq_error_iff {β : Type} {k : Nat → Except ConfigFault β}
    {vs : List (String × Nat)} (hk : ∀ n, k n = .error f ↔ FirstMisread vars f vs) :
    loadCount vars name least standard >>= k = .error f ↔
      FirstMisread vars f ((name, least) :: vs) := by
  rw [Except.bind_eq_error_iff, firstMisread_cons_iff, loadCount_eq_error_iff,
    ← @exists_loadCount_iff vars name least standard, exists_and_right.symm]
  simp only [hk]

theorem load_eq_error_iff : load vars = .error f ↔ FaultOf vars f := by
  have hcounts : load vars = .error f ↔ loadAccess vars = .error f ∨
      ∃ a, loadAccess vars = .ok a ∧ FirstMisread vars f counts := by
    rw [load, Except.bind_eq_error_iff]
    refine or_congr_right (exists_congr fun a => and_congr_right fun _ => ?_)
    refine bind_loadCount_eq_error_iff fun inbound => bind_loadCount_eq_error_iff fun subscriber =>
      bind_loadCount_eq_error_iff fun limit => ?_
    exact ⟨nofun, nofun⟩
  rw [hcounts]
  constructor
  · rintro (ha | ⟨a, ha, hfirst⟩)
    · rcases loadAccess_eq_error_iff.1 ha with ⟨hset, rfl⟩ | ⟨text, g, hset, hread, rfl⟩
      · exact .missing hset
      · refine .access hset (fun rows hw => ?_) hread
        cases hread.symm.trans (AccessList.read_eq_ok_iff.2 ⟨rows, hw, rfl⟩)
    · obtain ⟨text, rows, hset, hw, -⟩ := loadAccess_eq_ok_iff.1 ha
      exact .count hset hw hfirst
  · intro h
    cases h with
    | missing hset => exact Or.inl (loadAccess_eq_error_iff.2 (Or.inl ⟨hset, rfl⟩))
    | access hset _ hread =>
      exact Or.inl (loadAccess_eq_error_iff.2 (Or.inr ⟨_, _, hset, hread, rfl⟩))
    | count hset hw hfirst =>
      exact Or.inr ⟨_, loadAccess_eq_ok_iff.2 ⟨_, _, hset, hw, rfl⟩, hfirst⟩

/-! ## Configurations -/

/-- The text of the methods that are exempt from a feed. -/
def exemptText (vars : Variables) : Feed → String
  | .log => (vars logExemptVariable).getD standardLogExempt
  | .stat => (vars statExemptVariable).getD ""

/-- The variables give the configuration. -/
structure Loads (vars : Variables) (c : Config) : Prop where
  access : ∃ text rows, vars accessVariable = some text ∧ AccessList.Written text rows ∧
    c.access = .ofRows rows
  inbound : IsCount vars inboundVariable 1 Settings.standard.inbound c.inbound
  subscriber : IsCount vars subscriberVariable 1 Settings.standard.subscriber c.subscriber
  /-- A limit of zero is none. -/
  limit : ∃ n, IsCount vars limitVariable 0 standardLimit n ∧
    (n = 0 ∧ c.limit = none ∨ 0 < n ∧ c.limit = some n)
  exempt : ∀ feed, c.rules.exempt feed = Text.items (exemptText vars feed)

theorem load_eq_ok_iff : load vars = .ok c ↔ Loads vars c := by
  have hpeel : load vars = .ok c ↔ ∃ access, loadAccess vars = .ok access ∧
      ∃ inbound, IsCount vars inboundVariable 1 Settings.standard.inbound inbound ∧
      ∃ subscriber, IsCount vars subscriberVariable 1 Settings.standard.subscriber subscriber ∧
      ∃ limit, IsCount vars limitVariable 0 standardLimit limit ∧
        (⟨access, inbound, subscriber, if limit = 0 then none else some limit,
          Text.items (exemptText vars .log), Text.items (exemptText vars .stat)⟩ : Config) = c := by
    simp only [load, Except.bind_eq_ok_iff, loadCount_eq_ok_iff, pure, Except.pure,
      Except.ok.injEq, exemptText]
  rw [hpeel]
  constructor
  · rintro ⟨access, ha, inbound, hi, subscriber, hs, limit, hl, rfl⟩
    refine ⟨loadAccess_eq_ok_iff.1 ha, hi, hs, ⟨limit, hl, ?_⟩, fun feed => by cases feed <;> rfl⟩
    rcases Nat.eq_zero_or_pos limit with hzero | hpos
    · exact Or.inl ⟨hzero, if_pos hzero⟩
    · exact Or.inr ⟨hpos, if_neg (Nat.ne_of_gt hpos)⟩
  · intro h
    obtain ⟨limit, hl, hlimit⟩ := h.limit
    refine ⟨_, loadAccess_eq_ok_iff.2 h.access, _, h.inbound, _, h.subscriber, limit, hl, ?_⟩
    have hlog : c.logExempt = _ := h.exempt .log
    have hstat : c.statExempt = _ := h.exempt .stat
    have hsome : c.limit = if limit = 0 then none else some limit := by
      rcases hlimit with ⟨rfl, hnone⟩ | ⟨hpos, hsome⟩
      · exact hnone
      · rw [hsome, if_neg (Nat.ne_of_gt hpos)]
    rw [← hlog, ← hstat, ← hsome]

/-! ## What is not looked at -/

/-- The variables that may be at fault. -/
def checked : List String := accessVariable :: counts.map Prod.fst

/-- All variables that are looked at. -/
def known : List String := checked ++ [logExemptVariable, statExemptVariable]

theorem load_congr (hknown : ∀ name ∈ known, vars' name = vars name) : load vars' = load vars := by
  have haccess : loadAccess vars' = loadAccess vars := by
    rw [loadAccess, hknown accessVariable (by decide), ← loadAccess]
  have hcount : ∀ name ∈ known, ∀ least standard,
      loadCount vars' name least standard = loadCount vars name least standard := by
    intro name hname least standard
    rw [loadCount, hknown name hname, ← loadCount]
  rw [load, haccess, hcount inboundVariable (by decide), hcount subscriberVariable (by decide),
    hcount limitVariable (by decide), hknown logExemptVariable (by decide),
    hknown statExemptVariable (by decide), ← load]

theorem FirstMisread.of_agree {vs : List (String × Nat)}
    (hagree : ∀ v ∈ vs, vars' v.1 = vars v.1) (h : FirstMisread vars f vs) :
    FirstMisread vars' f vs := by
  have hmisread : ∀ name least g, vars' name = vars name →
      (IsMisread vars' name least g ↔ IsMisread vars name least g) := by
    intro name least g hname
    rw [IsMisread, hname, ← IsMisread]
  induction h with
  | here hm => exact .here ((hmisread _ _ _ (hagree _ List.mem_cons_self)).2 hm)
  | later hnot _ ih =>
    refine .later (fun g hg => hnot g ?_) (ih fun v hv => hagree v (List.mem_cons_of_mem _ hv))
    exact (hmisread _ _ _ (hagree _ List.mem_cons_self)).1 hg

theorem FaultOf.of_agree (hagree : ∀ name ∈ checked, vars' name = vars name)
    (h : FaultOf vars f) : FaultOf vars' f := by
  obtain ⟨haccess, hcounts⟩ := List.forall_mem_cons.1 hagree
  cases h with
  | missing hset => exact .missing (haccess.trans hset)
  | access hset hno hread => exact .access (haccess.trans hset) hno hread
  | count hset hw hfirst =>
    exact .count (haccess.trans hset) hw
      (hfirst.of_agree fun v hv => hcounts v.1 (List.mem_map_of_mem hv))

/-- **Variables give a configuration or have a fault.** A count is a numeral of a word, with blanks
    around it. The fault is that of the first variable that is at fault: that there is no access
    list, that its text is none, or that a count is misread, with the name of the variable and its
    text as it is. Without a fault there is the configuration of what the variables are set to. No
    other variable makes a difference, and those of the exempt methods make none to the fault. -/
theorem load_decides (vars : Variables) :
    (∀ text n, Text.readCount text = some n ↔ Text.IsNumeral text n ∧ n < 2 ^ 64) ∧
    (load vars = .error (.missing accessVariable) ↔ vars accessVariable = none) ∧
    (∀ f, load vars = .error f ↔ FaultOf vars f) ∧
    (∀ c, load vars = .ok c ↔ Loads vars c) ∧
    ((∃ c, load vars = .ok c) ↔ ∀ f, ¬ FaultOf vars f) ∧
    (∀ vars', (∀ name ∈ known, vars' name = vars name) → load vars' = load vars) ∧
    (∀ vars', (∀ name ∈ checked, vars' name = vars name) →
      ∀ f, load vars' = .error f ↔ load vars = .error f) := by
  refine ⟨fun text n => Text.readCount_eq_some_iff, ?_, fun f => load_eq_error_iff,
    fun c => load_eq_ok_iff, ?_, fun vars' => load_congr, fun vars' hagree f => ?_⟩
  · rw [load_eq_error_iff]
    constructor
    · intro h
      cases h with
      | missing hset => exact hset
      | count _ _ hfirst =>
        obtain ⟨v, -, text, -, he, -⟩ := hfirst.exists_misread
        cases he
    · exact .missing
  · simp only [← load_eq_error_iff]
    cases load vars <;> simp
  · rw [load_eq_error_iff, load_eq_error_iff]
    exact ⟨.of_agree fun name hname => (hagree name hname).symm, .of_agree hagree⟩

/-- The first fault counts, though the text of the limit is none either; neither a variable that is
    not looked at nor one of exempt methods changes that. -/
theorem load_decides_subscriber : ∃ vars foreign exempting : Variables,
    vars inboundVariable = some " +007\u2003" ∧ vars subscriberVariable = some "00 " ∧
    vars limitVariable = some "18446744073709551616" ∧
    load vars = .error (.ofText subscriberVariable "00 ") ∧
    (∀ name ∈ known, foreign name = vars name) ∧ foreign "PATH" ≠ vars "PATH" ∧
    load foreign = load vars ∧
    (∀ name ∈ checked, exempting name = vars name) ∧
    exempting statExemptVariable ≠ vars statExemptVariable ∧
    load exempting = .error (.ofText subscriberVariable "00 ") := by
  let rows := [(accessVariable, "\x7b\x7d"), (inboundVariable, " +007\u2003"),
    (subscriberVariable, "00 "), (limitVariable, "18446744073709551616")]
  let vars : Variables := (rows.lookup ·)
  obtain ⟨-, -, hfault, -, -, hknown, hchecked⟩ := load_decides vars
  have hread : Access.Mapping.read "\x7b\x7d" = some [] := rfl
  have hw : AccessList.Written "\x7b\x7d" [] := Access.Mapping.read_eq_some_iff.1 hread
  have hload : load vars = .error (.ofText subscriberVariable "00 ") := by
    refine (hfault _).2 (.count rfl hw (.later ?_ (.here ?_)))
    · exact (@exists_loadCount_iff vars inboundVariable 1 1).1 ⟨7, rfl⟩
    · exact (@loadCount_eq_error_iff vars subscriberVariable 1 1 _).1 rfl
  have hforeign := hknown ((("PATH", "/bin") :: rows).lookup ·) (by decide)
  have hexempting := hchecked (((statExemptVariable, "/m") :: rows).lookup ·) (by decide)
  exact ⟨vars, _, _, rfl, rfl, rfl, hload, by decide, by decide, hforeign, by decide, by decide,
    (hexempting _).2 hload⟩

end Config

end CallFeed
