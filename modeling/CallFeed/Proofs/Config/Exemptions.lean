/-
  CallFeed — which methods are exempt from a feed.

  * `DispatchRules.exempting`: rules in which methods are named one after the other exempt just
    these (`mem_exempt_exempting_iff`), and the rules of a configuration are such
    (`Config.rules_eq`);
  * `DispatchRules.same_iff_emitsTo`: rules are the same just if they decide alike;
  * `exemptions_as_written`: from the text of a variable to what is told on a feed.
-/
import CallFeed.Proofs.Config.Loading

namespace CallFeed

namespace DispatchRules

variable {r s : DispatchRules} {feed : Feed} {method : String} {named : List (Feed × String)}

/-- The rules in which these methods are exempt, each from a feed, named one after the other. -/
def exempting (named : List (Feed × String)) : DispatchRules :=
  named.foldl (fun r row => r.exemptFrom row.2 row.1) {}

theorem emitsTo_eq_false_iff : r.emitsTo feed method = false ↔ method ∈ r.exempt feed := by
  simp [emitsTo]

/-- A method is exempt once it is named, and remains so. -/
theorem mem_exempt_exemptFrom_iff {feed' : Feed} {method' : String} :
    method ∈ (r.exemptFrom method' feed').exempt feed ↔
      method ∈ r.exempt feed ∨ (feed, method) = (feed', method') := by
  cases feed <;> cases feed' <;> simp [exemptFrom, exempt]

theorem mem_exempt_exempting_iff :
    method ∈ (exempting named).exempt feed ↔ (feed, method) ∈ named := by
  have hfold : ∀ r : DispatchRules,
      method ∈ (named.foldl (fun r row => r.exemptFrom row.2 row.1) r).exempt feed ↔
        method ∈ r.exempt feed ∨ (feed, method) ∈ named := by
    induction named with
    | nil => simp
    | cons row named ih =>
      intro r
      rw [List.foldl_cons, ih, mem_exempt_exemptFrom_iff, or_assoc, List.mem_cons]
  have hnone : method ∉ ({} : DispatchRules).exempt feed := by
    cases feed <;> simp [exempt]
  rw [exempting, hfold, or_iff_right hnone]

/-- Methods that are named for one feed come behind those that were. -/
theorem foldl_exemptFrom (feed : Feed) (ms : List String) (r : DispatchRules) :
    (ms.map (feed, ·)).foldl (fun r row => r.exemptFrom row.2 row.1) r =
      match feed with
      | .log => { r with logExempt := r.logExempt ++ ms }
      | .stat => { r with statExempt := r.statExempt ++ ms } := by
  induction ms generalizing r with
  | nil => cases feed <;> simp
  | cons m ms ih =>
    rw [List.map_cons, List.foldl_cons, ih]
    cases feed <;> simp [exemptFrom]

theorem sameMethods_iff {xs ys : List String} :
    sameMethods xs ys = true ↔ ∀ m, m ∈ xs ↔ m ∈ ys := by
  simp only [sameMethods, Bool.and_eq_true, List.all_eq_true, List.contains_iff_mem]
  constructor
  · rintro ⟨hxy, hyx⟩ m
    exact ⟨hxy m, hyx m⟩
  · intro h
    exact ⟨fun m => (h m).1, fun m => (h m).2⟩

/-- Rules are the same just if they decide alike. -/
theorem same_iff_emitsTo :
    r.same s = true ↔ ∀ feed method, r.emitsTo feed method = s.emitsTo feed method := by
  have hemits : ∀ feed method, r.emitsTo feed method = s.emitsTo feed method ↔
      (method ∈ r.exempt feed ↔ method ∈ s.exempt feed) := by
    intro feed method
    rw [← emitsTo_eq_false_iff, ← emitsTo_eq_false_iff]
    cases r.emitsTo feed method <;> cases s.emitsTo feed method <;> simp
  rw [same, Bool.and_eq_true, sameMethods_iff, sameMethods_iff]
  constructor
  · rintro ⟨hlog, hstat⟩ feed method
    rw [hemits]
    cases feed
    · exact hlog method
    · exact hstat method
  · intro h
    exact ⟨fun m => (hemits .log m).1 (h .log m), fun m => (hemits .stat m).1 (h .stat m)⟩

end DispatchRules

namespace Config

open Text (IsItem Lists Trims)

/-- The rules of a configuration exempt the methods that it names. -/
theorem rules_eq (c : Config) : c.rules = .exempting
    (c.logExempt.map (Feed.log, ·) ++ c.statExempt.map (Feed.stat, ·)) := by
  rw [DispatchRules.exempting, List.foldl_append, DispatchRules.foldl_exemptFrom,
    DispatchRules.foldl_exemptFrom]
  rfl

/-- What the rules of a configuration make of the text of a feed's exempt methods. -/
structure Exempts (text : String) (c : Config) (feed : Feed) : Prop where
  /-- They have the items of the text, in their order and each as often as it is there. -/
  lists : Lists text (c.rules.exempt feed)
  isItem : ∀ method ∈ c.rules.exempt feed, IsItem method
  emitsTo : ∀ method, c.rules.emitsTo feed method = false ↔
    method ≠ "" ∧ ∃ piece ∈ text.toList.splitOn ',', Trims piece method.toList

theorem exempts_of_load {vars : Variables} {c : Config} (hload : load vars = .ok c) (feed : Feed) :
    Exempts (exemptText vars feed) c feed := by
  have hitems := (load_eq_ok_iff.1 hload).exempt feed
  have hlists : Lists (exemptText vars feed) (c.rules.exempt feed) :=
    Text.items_eq_iff.1 hitems.symm
  refine ⟨hlists, hlists.isItem, fun method => ?_⟩
  rw [DispatchRules.emitsTo_eq_false_iff, hitems, Text.mem_items_iff]

/-- **A method is exempt just if its feed's text lists it.** In a configuration that is loaded,
    calls of a method are not told on a feed just if the method is not empty and one of the pieces
    between the commas of the text is the method with blanks around it; the list that is read has
    these methods in their order, without those that are empty. It is the only list that the text
    holds, so that methods joined by commas are read back, whatever blanks and empty pieces are
    put between them, and so is the list that was read. The rules of the configuration exempt the
    methods of both lists, and rules in which methods are named one after the other are the same
    just if they decide alike on every feed and method: they exempt what was named. -/
theorem exemptions_as_written :
    (∀ vars c, load vars = .ok c → ∀ feed, Exempts (exemptText vars feed) c feed) ∧
    (∀ text methods, Text.items text = methods ↔ Lists text methods) ∧
    (∀ text, Text.items (",".intercalate (Text.items text)) = Text.items text) ∧
    (∀ c : Config, c.rules = .exempting
      (c.logExempt.map (Feed.log, ·) ++ c.statExempt.map (Feed.stat, ·))) ∧
    (∀ named feed method, (DispatchRules.exempting named).emitsTo feed method = false ↔
      (feed, method) ∈ named) ∧
    (∀ named named', (DispatchRules.exempting named).same (.exempting named') = true ↔
      ∀ feed method, (DispatchRules.exempting named).emitsTo feed method =
        (DispatchRules.exempting named').emitsTo feed method) := by
  refine ⟨fun vars c => exempts_of_load, fun text methods => Text.items_eq_iff, fun text => ?_,
    rules_eq, fun named feed method => ?_, fun named named' => DispatchRules.same_iff_emitsTo⟩
  · have hlists : Lists text (Text.items text) := Text.items_eq_iff.1 rfl
    exact Text.items_intercalate hlists.isItem
  · rw [DispatchRules.emitsTo_eq_false_iff, DispatchRules.mem_exempt_exempting_iff]

/-- A method with a blank in it is listed twice, between empty pieces, and the log feed has the
    standard text. -/
theorem exemptions_as_written_blanks : ∃ (vars : Variables) (c : Config),
    load vars = .ok c ∧ exemptText vars .stat = " /a b ,,\u2003,/c\n,/a b" ∧
    Exempts (exemptText vars .stat) c .stat ∧ c.statExempt = ["/a b", "/c", "/a b"] ∧
    Exempts (exemptText vars .log) c .log ∧ c.rules.emitsTo .log "/main.Admin/Logging" = false := by
  let vars : Variables := ([(accessVariable, "\x7b\x7d"),
    (statExemptVariable, " /a b ,,\u2003,/c\n,/a b")].lookup ·)
  have hload : load vars = .ok _ := rfl
  obtain ⟨hexempts, -⟩ := exemptions_as_written
  exact ⟨vars, _, hload, rfl, hexempts _ _ hload .stat, by decide, hexempts _ _ hload .log,
    by decide⟩

end Config

end CallFeed
