import Mathlib.Logic.Relation
import ExpressModel.Error

/-! # Searches that keep their path

A depth-first search for a goal keeps no record of where it has been, only of the nodes that it is
inside of, and is refused when it comes to one of these again.  So an answer says something of all
nodes that steps lead to (`Settles`): an affirmative one that a goal is among them, a negative one
that none is and that no cycle is either, and a refusal names a node on a cycle.

The answer for a node is that for its successors, tried in order, each searched from inside the
node (`Settles.of_successors`).  What a search from the outside decides is then a matter of the
three kinds of answer alone (`Settles.eq_ok_false_iff`, `Settles.eq_ok_true_iff`). -/

namespace ExpressModel

open Relation (ReflTransGen TransGen)

/-! ### What steps lead to -/

/-- What is so at the start, and behind every step from where steps lead, is so wherever they
lead. -/
theorem of_reaches {α : Type} {R : α → α → Prop} {P : α → Prop} {a c : α} (hstart : P a)
    (hstep : ∀ b c, ReflTransGen R a b → R b c → P c) (hc : ReflTransGen R a c) : P c := by
  rcases ReflTransGen.cases_tail hc with rfl | ⟨b, hb, hlast⟩
  · exact hstart
  · exact hstep b c hb hlast

/-! ### Trying in order -/

/-- Trying in order ends at the first affirmative answer or refusal. -/
theorem anyM_cases {α : Type} (ask : α → Except Error Bool) (nodes : List α) :
    (nodes.anyM ask = .ok true ∧ ∃ a ∈ nodes, ask a = .ok true) ∨
      (nodes.anyM ask = .ok false ∧ ∀ a ∈ nodes, ask a = .ok false) ∨
      ∃ e, nodes.anyM ask = .error e ∧ ∃ a ∈ nodes, ask a = .error e := by
  induction nodes with
  | nil =>
      refine .inr (.inl ⟨rfl, ?_⟩)
      intro a ha
      cases ha
  | cons a nodes ih =>
      rw [List.anyM]
      cases h : ask a with
      | error e => exact .inr (.inr ⟨e, rfl, a, List.mem_cons_self, h⟩)
      | ok found =>
          cases found with
          | true => exact .inl ⟨rfl, a, List.mem_cons_self, h⟩
          | false =>
              show (nodes.anyM ask = _ ∧ _) ∨ (nodes.anyM ask = _ ∧ _) ∨ ∃ e, nodes.anyM ask = _ ∧ _
              rcases ih with ⟨heq, b, hb, hfound⟩ | ⟨heq, hnone⟩ | ⟨e, heq, b, hb, herr⟩
              · exact .inl ⟨heq, b, List.mem_cons_of_mem _ hb, hfound⟩
              · refine .inr (.inl ⟨heq, ?_⟩)
                intro b hb
                rcases List.mem_cons.mp hb with rfl | hb
                · exact h
                · exact hnone b hb
              · exact .inr (.inr ⟨e, heq, b, List.mem_cons_of_mem _ hb, herr⟩)

/-! ### Answers -/

section answers

variable {α : Type} {R : α → α → Prop} {goal inside : α → Prop} {names : α → Error → Prop} {a : α}

/-- What the answer of a search says of the nodes that steps lead to: the search has come to a
goal; or there is none, no node that the search was inside of and no node on a cycle; or the error
names a node on a cycle. -/
def Settles (R : α → α → Prop) (goal inside : α → Prop) (names : α → Error → Prop) (a : α) :
    Except Error Bool → Prop
  | .ok true => ∃ c, ReflTransGen R a c ∧ goal c
  | .ok false => ∀ c, ReflTransGen R a c → ¬ goal c ∧ ¬ inside c ∧ ¬ TransGen R c c
  | .error e => ∃ c, ReflTransGen R a c ∧ TransGen R c c ∧ names c e

/-- A node that the search is inside of, and that steps lead back to. -/
theorem Settles.of_loop {e : Error} (hloop : TransGen R a a) (hname : names a e) :
    Settles R goal inside names a (.error e) :=
  ⟨a, .refl, hloop, hname⟩

theorem Settles.of_goal (h : goal a) : Settles R goal inside names a (.ok true) :=
  ⟨a, .refl, h⟩

theorem Settles.of_leaf (hnext : ∀ b, ¬ R a b) (hgoal : ¬ goal a) (hinside : ¬ inside a) :
    Settles R goal inside names a (.ok false) := by
  intro c hc
  rcases ReflTransGen.cases_head hc with rfl | ⟨b, hb, -⟩
  · refine ⟨hgoal, hinside, ?_⟩
    intro hloop
    obtain ⟨b, hb, -⟩ := TransGen.head'_iff.mp hloop
    exact hnext b hb
  · exact absurd hb (hnext b)

/-- A node that is no goal is answered for by its successors, searched from inside it. -/
theorem Settles.of_successors {inside' : α → Prop} {next : List α} {ask : α → Except Error Bool}
    (hnext : ∀ b, R a b ↔ b ∈ next) (hgoal : ¬ goal a) (hinside : ¬ inside a)
    (ha : inside' a) (hinside' : ∀ c, inside c → inside' c)
    (h : ∀ b ∈ next, Settles R goal inside' names b (ask b)) :
    Settles R goal inside names a (next.anyM ask) := by
  rcases anyM_cases ask next with ⟨heq, b, hb, hask⟩ | ⟨heq, hask⟩ | ⟨e, heq, b, hb, hask⟩
  · rw [heq]
    have hb' := h b hb
    rw [hask] at hb'
    obtain ⟨c, hc, hfound⟩ := hb'
    exact ⟨c, .head ((hnext b).mpr hb) hc, hfound⟩
  · rw [heq]
    have hbeyond : ∀ b, R a b → ∀ c, ReflTransGen R b c →
        ¬ goal c ∧ ¬ inside' c ∧ ¬ TransGen R c c := by
      intro b hb
      have hb' := h b ((hnext b).mp hb)
      rw [hask b ((hnext b).mp hb)] at hb'
      exact hb'
    intro c hc
    rcases ReflTransGen.cases_head hc with rfl | ⟨b, hb, hc⟩
    · refine ⟨hgoal, hinside, ?_⟩
      -- a cycle through the node would lead a successor back to it, from inside it
      intro hloop
      obtain ⟨b, hb, hback⟩ := TransGen.head'_iff.mp hloop
      exact (hbeyond b hb _ hback).2.1 ha
    · obtain ⟨hgoal', hout, hloop⟩ := hbeyond b hb c hc
      exact ⟨hgoal', fun hin => hout (hinside' c hin), hloop⟩
  · rw [heq]
    have hb' := h b hb
    rw [hask] at hb'
    obtain ⟨c, hc, hfound⟩ := hb'
    exact ⟨c, .head ((hnext b).mpr hb) hc, hfound⟩

/-! ### Decisions -/

/-- Steps lead to a cycle. -/
def MeetsCycle (R : α → α → Prop) (a : α) : Prop :=
  ∃ c, ReflTransGen R a c ∧ TransGen R c c

variable {answer : Except Error Bool}

theorem Settles.exists_eq_ok (h : Settles R goal inside names a answer)
    (hcycle : ¬ MeetsCycle R a) : ∃ found, answer = .ok found := by
  cases answer with
  | error e =>
      obtain ⟨c, hc, hloop, -⟩ := h
      exact absurd ⟨c, hc, hloop⟩ hcycle
  | ok found => exact ⟨found, rfl⟩

/-- Where there is no cycle the answer is affirmative just where there is a goal. -/
theorem Settles.eq_ok_true_iff (h : Settles R goal inside names a answer)
    (hcycle : ¬ MeetsCycle R a) : answer = .ok true ↔ ∃ c, ReflTransGen R a c ∧ goal c := by
  constructor
  · rintro rfl
    exact h
  · rintro ⟨c, hc, hfound⟩
    obtain ⟨found, rfl⟩ := h.exists_eq_ok hcycle
    cases found with
    | true => rfl
    | false => exact absurd hfound (h c hc).1

/-- The answer is negative where there is neither a goal nor a cycle, and nowhere else. -/
theorem Settles.eq_ok_false_iff (h : Settles R goal inside names a answer) :
    answer = .ok false ↔ (¬ ∃ c, ReflTransGen R a c ∧ goal c) ∧ ¬ MeetsCycle R a := by
  constructor
  · rintro rfl
    refine ⟨?_, ?_⟩
    · rintro ⟨c, hc, hfound⟩
      exact (h c hc).1 hfound
    · rintro ⟨c, hc, hloop⟩
      exact (h c hc).2.2 hloop
  · rintro ⟨hgoal, hcycle⟩
    obtain ⟨found, rfl⟩ := h.exists_eq_ok hcycle
    cases found with
    | true => exact absurd h hgoal
    | false => rfl

end answers

end ExpressModel
