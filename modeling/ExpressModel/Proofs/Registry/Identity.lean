import ExpressModel.Proofs.Registry.AtEnd
import ExpressModel.Proofs.Registry.Layout

/-! # Identity of elements

An owning registry gives every value that it stores a number of its own, and what it holds is told
apart by that number alone.  An operation on it replaces one stretch of its slots by another: the
elements of the old stretch leave, at most one new element enters, and the slots on both sides stay
as they are (`perform_replaces`).

Over a run the elements that have been stored are conserved: each is held or has left, and there
it is once (`stored_perm`).  `identity_exact` draws the conclusions for runs from a new registry:
an element is found exactly at the one index that holds it, from the operation that stores it to
the one that takes it out, and never again after that.  The cells that the registry is stored in
hold the same elements and no others. -/

namespace ExpressModel

/-! ### Stretches of slots -/

namespace Registry

variable {α : Type}

/-- One stretch of the slots is replaced by another, and the slots before and behind it are
kept. -/
def Spliced (out into : List (Option α)) (r r' : Registry α) : Prop :=
  ∃ before after, r.toList = before ++ out ++ after ∧ r'.toList = before ++ into ++ after

theorem spliced_of_toList_eq {r r' : Registry α} (h : r'.toList = r.toList) :
    Spliced [] [] r r' := by
  refine ⟨r.toList, [], ?_, ?_⟩
  · rw [List.append_nil, List.append_nil]
  · rw [List.append_nil, List.append_nil, h]

theorem spliced_insertAt {i : Nat} {r : Registry α} (hi : i ≤ r.count) (a : α) :
    Spliced [] [some a] r (r.insertAt i a) := by
  have hi' : i ≤ r.toList.length := by
    rw [length_toList]
    exact hi
  refine ⟨r.toList.take i, r.toList.drop i, ?_, ?_⟩
  · rw [List.append_nil, List.take_append_drop]
  · rw [toList_insertAt hi, Buffer.insertIdx_eq_take_append_drop hi', List.append_assoc]
    rfl

/-- The slot at an index, with those before and behind it. -/
theorem toList_eq_of_lt {i : Nat} {r : Registry α} (hi : i < r.count) :
    r.toList = r.toList.take i ++ [r.get? i] ++ r.toList.drop (i + 1) := by
  have hi' : i < r.toList.length := by
    rw [length_toList]
    exact hi
  have hslot : r.get? i = r.toList[i] := by
    rw [get?_eq, List.getElem?_eq_getElem hi']
    rfl
  rw [hslot, List.append_assoc, List.singleton_append, ← List.drop_eq_getElem_cons hi',
    List.take_append_drop]

theorem spliced_place_of_lt {i : Nat} {r : Registry α} (hi : i < r.count) (a : α) :
    Spliced [r.get? i] [some a] r ((r.reserve i).place i a) := by
  refine ⟨r.toList.take i, r.toList.drop (i + 1), toList_eq_of_lt hi, ?_⟩
  rw [toList_place, count_reserve, if_pos hi, toList_reserve, List.set_eq_take_append_cons_drop,
    length_toList, if_pos hi, List.append_assoc]
  rfl

theorem spliced_place_of_not_lt {i : Nat} {r : Registry α} (hi : ¬ i < r.count) (a : α) :
    Spliced [] (List.replicate (i - r.count) none ++ [some a]) r ((r.reserve i).place i a) := by
  refine ⟨r.toList, [], ?_, ?_⟩
  · rw [List.append_nil, List.append_nil]
  · rw [toList_place, count_reserve, if_neg hi, toList_reserve, List.append_nil,
      List.append_assoc]

theorem spliced_remove_of_lt {i : Nat} {r : Registry α} (hi : i < r.count) :
    Spliced [r.get? i] [] r (r.remove i).2 := by
  refine ⟨r.toList.take i, r.toList.drop (i + 1), toList_eq_of_lt hi, ?_⟩
  rw [toList_remove, List.eraseIdx_eq_take_drop_succ, List.append_nil]

theorem filterMap_replicate_none_append (n : Nat) (a : α) :
    (List.replicate n (none : Option α) ++ [some a]).filterMap id = [a] := by
  rw [List.filterMap_append, List.filterMap_replicate_of_none rfl]
  rfl

theorem get?_of_not_lt {i : Nat} {r : Registry α} (hi : ¬ i < r.count) : r.get? i = none := by
  rw [← length_toList] at hi
  rw [get?_eq, List.getElem?_eq_none (Nat.le_of_not_lt hi), Option.join_none]

/-- What is placed at an index takes the place of what was there. -/
theorem spliced_place (i : Nat) (a : α) (r : Registry α) :
    ∃ out into, Spliced out into r ((r.reserve i).place i a) ∧
      out.filterMap id = (r.get? i).toList ∧ into.filterMap id = [a] := by
  by_cases hi : i < r.count
  · refine ⟨_, _, spliced_place_of_lt hi a, ?_, rfl⟩
    cases r.get? i <;> rfl
  · refine ⟨_, _, spliced_place_of_not_lt hi a, ?_, filterMap_replicate_none_append _ a⟩
    rw [get?_of_not_lt hi]
    rfl

theorem spliced_remove (i : Nat) (r : Registry α) :
    ∃ out, Spliced out [] r (r.remove i).2 ∧ out.filterMap id = (r.get? i).toList := by
  by_cases hi : i < r.count
  · refine ⟨_, spliced_remove_of_lt hi, ?_⟩
    cases r.get? i <;> rfl
  · refine ⟨[], spliced_of_toList_eq ?_, ?_⟩
    · rw [toList_remove, List.eraseIdx_of_length_le]
      rw [length_toList]
      exact Nat.le_of_not_lt hi
    · rw [get?_of_not_lt hi]
      rfl

theorem spliced_clear (r : Registry α) : Spliced r.toList [] r r.clear.2 := by
  refine ⟨[], [], ?_, ?_⟩
  · rw [List.nil_append, List.append_nil]
  · rw [toList_clear]
    rfl

theorem set_cases (i : Nat) (a : α) (r : Registry α) :
    set i a r = .ok () ((r.reserve i).place i a) ∨ ∃ err, set i a r = .error err r := by
  unfold set
  split
  · exact .inr ⟨_, rfl⟩
  · exact write_cases i a r

/-- An insertion makes room between two slots, or writes beyond the end. -/
theorem insert_cases (a : α) (at? : Option Nat) (r : Registry α) :
    (∃ i ≤ r.count, insert a at? r = .ok i (r.insertAt i a)) ∨
      (∃ i, ¬ i < r.count ∧ insert a at? r = .ok i ((r.reserve i).place i a)) ∨
      ∃ err, insert a at? r = .error err r := by
  have hat : insert a at? r = insert a (some (at?.getD r.count)) r := rfl
  rw [hat]
  by_cases hi : at?.getD r.count ≤ r.count
  · exact .inl ⟨_, hi, insert_of_le hi a⟩
  · refine .inr ?_
    cases hp : r.policy with
    | strict => exact .inr ⟨_, insert_beyond_strict hi hp a⟩
    | extend =>
        rw [insert_beyond hi hp]
        rcases write_cases (at?.getD r.count) a r with hw | ⟨err, hw⟩
        · refine .inl ⟨at?.getD r.count, fun hlt => hi (Nat.le_of_lt hlt), ?_⟩
          rw [hw]
        · refine .inr ⟨err, ?_⟩
          rw [hw]

theorem insert_spliced (a : α) (at? : Option Nat) (r : Registry α) :
    (∃ i r' into, insert a at? r = .ok i r' ∧ Spliced [] into r r' ∧ into.filterMap id = [a]) ∨
      ∃ err, insert a at? r = .error err r := by
  rcases insert_cases a at? r with ⟨i, hi, h⟩ | ⟨i, hi, h⟩ | h
  · exact .inl ⟨i, _, _, h, spliced_insertAt hi a, rfl⟩
  · exact .inl ⟨i, _, _, h, spliced_place_of_not_lt hi a, filterMap_replicate_none_append _ a⟩
  · exact .inr h

end Registry

/-! ### Numbered slots -/

section numbered

variable {β : Type} {number : β → Nat} {slots : List (Option β)}

/-- Elements of the same number are in the same slot, where no two have one number. -/
theorem index_eq_of_number_eq (h : ((slots.filterMap id).map number).Nodup) {i j : Nat} {a b : β}
    (hi : slots[i]? = some (some a)) (hj : slots[j]? = some (some b))
    (hab : number a = number b) : i = j := by
  rw [List.Nodup, List.pairwise_map, List.pairwise_filterMap, List.pairwise_iff_getElem] at h
  obtain ⟨hilt, hi⟩ := List.getElem?_eq_some_iff.mp hi
  obtain ⟨hjlt, hj⟩ := List.getElem?_eq_some_iff.mp hj
  rcases Nat.lt_trichotomy i j with hlt | heq | hlt
  · exact absurd hab (h i j hilt hjlt hlt a hi b hj)
  · exact heq
  · exact absurd hab.symm (h j i hjlt hilt hlt b hj a hi)

/-- The search for a number finds the slot of the element that has it. -/
theorem findIdx?_number_eq_some_iff (h : ((slots.filterMap id).map number).Nodup) {n i : Nat} :
    slots.findIdx? (fun slot => slot.any fun held => number held == n) = some i ↔
      ∃ held, slots[i]? = some (some held) ∧ number held = n := by
  rw [List.findIdx?_eq_some_iff_getElem]
  constructor
  · rintro ⟨hi, hany, -⟩
    obtain ⟨held, hheld, hn⟩ := (Option.any_eq_true _ _).mp hany
    exact ⟨held, List.getElem?_eq_some_iff.mpr ⟨hi, hheld⟩, eq_of_beq hn⟩
  · rintro ⟨held, hheld, rfl⟩
    obtain ⟨hi, hslot⟩ := List.getElem?_eq_some_iff.mp hheld
    refine ⟨hi, ?_, ?_⟩
    · rw [hslot]
      exact beq_self_eq_true _
    · intro j hj hany
      obtain ⟨other, hother, hn⟩ := (Option.any_eq_true _ _).mp hany
      have hslot' := List.getElem?_eq_some_iff.mpr ⟨Nat.lt_trans hj hi, hother⟩
      have hsame : j = i := index_eq_of_number_eq h hslot' hheld (eq_of_beq hn)
      omega

end numbered

/-! ### Operations -/

namespace OwnedRegistry

/-- An operation on an owning registry. -/
inductive Operation (α : Type) where
  | append (a : α)
  | insert (a : α) (at? : Option Nat)
  | set (i : Nat) (a : α)
  | remove (i : Nat)
  | clear
  | applyOptions (options : RegistryOptions)
  | get (i : Nat)
  | indexOf (e : Element α)

/-- The reply to an operation on an owning registry. -/
inductive Reply (α : Type) where
  | done
  | number (n : Nat)
  | number? (n? : Option Nat)
  /-- The element that a value has become. -/
  | stored (e : Element α)
  | element? (e? : Option (Element α))
  | refused (e : Error)

/-- Is the operation refused? -/
def Reply.isRefused {α : Type} : Reply α → Bool
  | .refused _ => true
  | _ => false

/-- The reply to an edit, with the state it leaves. -/
def Reply.ofResult {α β σ : Type} (reply : β → Reply α) : EStateM.Result Error σ β → Reply α × σ
  | .ok b s => (reply b, s)
  | .error e s => (.refused e, s)

variable {α : Type}

def perform : Operation α → OwnedRegistry α → Reply α × OwnedRegistry α
  | .append a, r => (.stored (r.append a).1, (r.append a).2)
  | .insert a at?, r => Reply.ofResult .stored (OwnedRegistry.insert a at? r)
  | .set i a, r => Reply.ofResult (fun _ => .done) (OwnedRegistry.set i a r)
  | .remove i, r => (.element? (r.remove i).1, (r.remove i).2)
  | .clear, r => (.number r.clear.1, r.clear.2)
  | .applyOptions options, r => (.done, r.applyOptions options)
  | .get i, r => (.element? (r.get? i), r)
  | .indexOf e, r => (.number? (r.indexOf? e), r)

/-- The value that an operation brings in. -/
def Operation.value? : Operation α → Option α
  | .append a => some a
  | .insert a _ => some a
  | .set _ a => some a
  | _ => none

/-- The element that enters with an operation: the value it brings in, under the next number,
unless it is refused. -/
def entering (op : Operation α) (r : OwnedRegistry α) : List (Element α) :=
  if (perform op r).1.isRefused then [] else (op.value?.map fun a => ⟨r.issued, a⟩).toList

/-- The elements that leave with an operation: what it removes, overwrites or clears. -/
def leaving (op : Operation α) (r : OwnedRegistry α) : List (Element α) :=
  match op with
  | .set i _ => if (perform op r).1.isRefused then [] else (r.get? i).toList
  | .remove i => (r.get? i).toList
  | .clear => r.live
  | _ => []

/-- The elements that a run stores, in order. -/
def stored : List (Operation α) → OwnedRegistry α → List (Element α) :=
  history perform entering

/-- The elements that a run removes, overwrites or clears, in order. -/
def gone : List (Operation α) → OwnedRegistry α → List (Element α) :=
  history perform leaving

/-! ### Steps -/

theorem perform_insert_of_ok {a : α} {at? : Option Nat} {registry registry' : Registry (Element α)}
    {issued i : Nat} (h : Registry.insert ⟨issued, a⟩ at? registry = .ok i registry') :
    perform (.insert a at?) ⟨registry, issued⟩ =
      (.stored ⟨issued, a⟩, ⟨registry', issued + 1⟩) := by
  simp only [perform, OwnedRegistry.insert, taking, h, Reply.ofResult]

theorem perform_insert_of_error {a : α} {at? : Option Nat}
    {registry registry' : Registry (Element α)} {issued : Nat} {err : Error}
    (h : Registry.insert ⟨issued, a⟩ at? registry = .error err registry') :
    perform (.insert a at?) ⟨registry, issued⟩ = (.refused err, ⟨registry', issued⟩) := by
  simp only [perform, OwnedRegistry.insert, taking, h, Reply.ofResult]

theorem set_eq (i : Nat) (a : α) (registry : Registry (Element α)) (issued : Nat) :
    OwnedRegistry.set i a ⟨registry, issued⟩ =
      match Registry.set i ⟨issued, a⟩ registry with
      | .ok _ registry => .ok () ⟨registry, issued + 1⟩
      | .error err registry => .error err ⟨registry, issued⟩ := by
  show EStateM.map _ (taking a fun e => Registry.set i e) _ = _
  unfold EStateM.map taking
  dsimp only
  cases Registry.set i ⟨issued, a⟩ registry <;> rfl

theorem perform_set_of_ok {i : Nat} {a : α} {registry registry' : Registry (Element α)}
    {issued : Nat} (h : Registry.set i ⟨issued, a⟩ registry = .ok () registry') :
    perform (.set i a) ⟨registry, issued⟩ = (.done, ⟨registry', issued + 1⟩) := by
  simp only [perform, set_eq, h, Reply.ofResult]

theorem perform_set_of_error {i : Nat} {a : α} {registry registry' : Registry (Element α)}
    {issued : Nat} {err : Error}
    (h : Registry.set i ⟨issued, a⟩ registry = .error err registry') :
    perform (.set i a) ⟨registry, issued⟩ = (.refused err, ⟨registry', issued⟩) := by
  simp only [perform, set_eq, h, Reply.ofResult]

/-- An operation replaces a stretch of slots that holds the leaving elements by one that holds the
entering element. -/
structure Replaces (op : Operation α) (r : OwnedRegistry α) : Prop where
  slots : ∃ out into, Registry.Spliced out into r.registry (perform op r).2.registry ∧
    out.filterMap id = leaving op r ∧ into.filterMap id = entering op r
  issued : (perform op r).2.issued = r.issued + (entering op r).length

theorem replaces_of_refused {op : Operation α} {r : OwnedRegistry α} {err : Error}
    (h : perform op r = (.refused err, r)) (hleaving : leaving op r = []) : Replaces op r := by
  have hentering : entering op r = [] := by
    unfold entering
    rw [h]
    rfl
  refine ⟨⟨[], [], ?_, hleaving.symm, hentering.symm⟩, ?_⟩
  · rw [h]
    exact Registry.spliced_of_toList_eq rfl
  · rw [h, hentering]
    rfl

/-- An operation that brings in no value and takes nothing out. -/
theorem replaces_of_toList_eq {op : Operation α} {r : OwnedRegistry α}
    (htoList : (perform op r).2.registry.toList = r.registry.toList)
    (hissued : (perform op r).2.issued = r.issued) (hvalue : op.value? = none)
    (hleaving : leaving op r = []) : Replaces op r := by
  have hentering : entering op r = [] := by
    unfold entering
    rw [hvalue]
    split <;> rfl
  refine ⟨⟨[], [], Registry.spliced_of_toList_eq htoList, hleaving.symm, hentering.symm⟩, ?_⟩
  rw [hissued, hentering]
  rfl

theorem perform_replaces (op : Operation α) (r : OwnedRegistry α) : Replaces op r := by
  obtain ⟨registry, issued⟩ := r
  cases op with
  | append a =>
      exact ⟨⟨[], _, Registry.spliced_insertAt (Nat.le_refl _) _, rfl, rfl⟩, rfl⟩
  | insert a at? =>
      rcases Registry.insert_spliced (⟨issued, a⟩ : Element α) at? registry with
        ⟨i, registry', into, h, hspliced, hinto⟩ | ⟨err, h⟩
      · have hop := perform_insert_of_ok h
        have hentering : entering (.insert a at?) ⟨registry, issued⟩ = [⟨issued, a⟩] := by
          unfold entering
          rw [hop]
          rfl
        refine ⟨⟨[], into, ?_, rfl, hinto.trans hentering.symm⟩, ?_⟩
        · rw [hop]
          exact hspliced
        · rw [hop, hentering]
          rfl
      · exact replaces_of_refused (perform_insert_of_error h) rfl
  | set i a =>
      rcases Registry.set_cases i (⟨issued, a⟩ : Element α) registry with h | ⟨err, h⟩
      · have hop := perform_set_of_ok h
        obtain ⟨out, into, hspliced, hout, hinto⟩ :=
          Registry.spliced_place i (⟨issued, a⟩ : Element α) registry
        have hentering : entering (.set i a) ⟨registry, issued⟩ = [⟨issued, a⟩] := by
          unfold entering
          rw [hop]
          rfl
        have hleaving : leaving (.set i a) ⟨registry, issued⟩ = (registry.get? i).toList := by
          unfold leaving
          dsimp only
          rw [hop]
          rfl
        refine ⟨⟨out, into, ?_, hout.trans hleaving.symm, hinto.trans hentering.symm⟩, ?_⟩
        · rw [hop]
          exact hspliced
        · rw [hop, hentering]
          rfl
      · have hop := perform_set_of_error h
        refine replaces_of_refused hop ?_
        unfold leaving
        dsimp only
        rw [hop]
        rfl
  | remove i =>
      obtain ⟨out, hspliced, hout⟩ := Registry.spliced_remove i registry
      exact ⟨⟨out, [], hspliced, hout, rfl⟩, rfl⟩
  | clear =>
      exact ⟨⟨_, [], Registry.spliced_clear registry, (Registry.live_eq registry).symm, rfl⟩, rfl⟩
  | applyOptions options =>
      exact replaces_of_toList_eq (Registry.toList_applyOptions options registry) rfl rfl rfl
  | get i => exact replaces_of_toList_eq rfl rfl rfl rfl
  | indexOf e => exact replaces_of_toList_eq rfl rfl rfl rfl

/-- The elements before an operation and the one that enters are those that leave and those that
are there afterwards. -/
theorem perform_perm (op : Operation α) (r : OwnedRegistry α) :
    (r.live ++ entering op r).Perm (leaving op r ++ (perform op r).2.live) := by
  obtain ⟨out, into, ⟨before, after, hslots, hslots'⟩, hout, hinto⟩ := (perform_replaces op r).slots
  unfold live
  rw [Registry.live_eq, Registry.live_eq, hslots, hslots']
  simp only [List.filterMap_append, hout, hinto]
  rw [← Multiset.coe_eq_coe]
  simp only [← Multiset.coe_add]
  abel

theorem entering_cases (op : Operation α) (r : OwnedRegistry α) :
    entering op r = [] ∨ ∃ a, entering op r = [⟨r.issued, a⟩] := by
  unfold entering
  split
  · exact .inl rfl
  · cases op.value? with
    | none => exact .inl rfl
    | some a => exact .inr ⟨a, rfl⟩

/-! ### Runs -/

/-- Elements are conserved: those at the start and those stored are those gone and those at the
end. -/
theorem run_perm (ops : List (Operation α)) (r : OwnedRegistry α) :
    (r.live ++ stored ops r).Perm (gone ops r ++ (run perform ops r).2.live) := by
  induction ops generalizing r with
  | nil =>
      show (r.live ++ []).Perm ([] ++ r.live)
      rw [List.append_nil, List.nil_append]
  | cons op ops ih =>
      show (r.live ++ (entering op r ++ stored ops (perform op r).2)).Perm
        (leaving op r ++ gone ops (perform op r).2 ++ (run perform ops (perform op r).2).2.live)
      have hstep := (perform_perm op r).append_right (stored ops (perform op r).2)
      have hrest := (ih (perform op r).2).append_left (leaving op r)
      rw [List.append_assoc, List.append_assoc] at hstep
      rw [List.append_assoc]
      exact hstep.trans hrest

theorem map_number_stored (ops : List (Operation α)) (r : OwnedRegistry α) :
    (stored ops r).map Element.number = List.range' r.issued (stored ops r).length := by
  induction ops generalizing r with
  | nil => rfl
  | cons op ops ih =>
      have hrest := ih (perform op r).2
      have hissued := (perform_replaces op r).issued
      show (entering op r ++ stored ops (perform op r).2).map Element.number =
        List.range' r.issued (entering op r ++ stored ops (perform op r).2).length
      rcases entering_cases op r with h | ⟨a, h⟩
      · rw [h] at hissued ⊢
        rw [hissued] at hrest
        exact hrest
      · rw [h] at hissued ⊢
        rw [hissued] at hrest
        rw [List.map_append, hrest, List.length_append, List.length_singleton, Nat.add_comm 1,
          List.range'_succ]
        rfl

/-- The registry that a run from a new one comes to. -/
def reached (capacity : Nat) (policy : IndexPolicy) (ops : List (Operation α)) :
    OwnedRegistry α :=
  (run perform ops (new capacity policy)).2

variable {capacity : Nat} {policy : IndexPolicy} {ops : List (Operation α)}

/-- Every element that has been stored is gone or held, and there it is once. -/
theorem stored_perm (capacity : Nat) (policy : IndexPolicy) (ops : List (Operation α)) :
    (stored ops (new capacity policy)).Perm
      (gone ops (new capacity policy) ++ (reached capacity policy ops).live) :=
  run_perm ops (new capacity policy)

theorem nodup_numbers (capacity : Nat) (policy : IndexPolicy) (ops : List (Operation α)) :
    ((gone ops (new capacity policy) ++ (reached capacity policy ops).live).map
      Element.number).Nodup := by
  refine ((stored_perm capacity policy ops).map Element.number).nodup ?_
  rw [map_number_stored]
  exact List.nodup_range'

theorem number_ne_of_gone {e held : Element α} (he : e ∈ gone ops (new capacity policy))
    (hheld : held ∈ (reached capacity policy ops).live) : held.number ≠ e.number := by
  have hnodup := nodup_numbers capacity policy ops
  rw [List.map_append, List.nodup_append] at hnodup
  exact (hnodup.2.2 _ (List.mem_map_of_mem he) _ (List.mem_map_of_mem hheld)).symm

theorem eq_of_number_eq {e e' : Element α} (he : e ∈ stored ops (new capacity policy))
    (he' : e' ∈ stored ops (new capacity policy)) (h : e.number = e'.number) : e = e' := by
  have hnodup : ((stored ops (new capacity policy)).map Element.number).Nodup := by
    rw [map_number_stored]
    exact List.nodup_range'
  exact List.inj_on_of_nodup_map hnodup he he' h

/-! ### Finding elements -/

theorem get?_eq_some_iff {r : OwnedRegistry α} {i : Nat} {e : Element α} :
    r.get? i = some e ↔ r.registry.toList[i]? = some (some e) := by
  unfold get?
  rw [Registry.get?_eq, Option.join_eq_some_iff]

theorem mem_live_iff {r : OwnedRegistry α} {e : Element α} :
    e ∈ r.live ↔ ∃ i, r.get? i = some e := by
  unfold live
  simp only [get?_eq_some_iff]
  rw [Registry.live_eq, List.mem_filterMap, ← List.mem_iff_getElem?]
  simp

theorem mem_stored_of_mem_live {e : Element α} (h : e ∈ (reached capacity policy ops).live) :
    e ∈ stored ops (new capacity policy) :=
  (stored_perm capacity policy ops).mem_iff.mpr (List.mem_append_right _ h)

theorem nodup_numbers_live (capacity : Nat) (policy : IndexPolicy) (ops : List (Operation α)) :
    ((reached capacity policy ops).live.map Element.number).Nodup := by
  have hnodup := nodup_numbers capacity policy ops
  rw [List.map_append, List.nodup_append] at hnodup
  exact hnodup.2.1

/-- The search for an element finds the slot that holds one of its number. -/
theorem indexOf?_reached {e : Element α} {i : Nat} :
    (reached capacity policy ops).indexOf? e = some i ↔
      ∃ held, (reached capacity policy ops).get? i = some held ∧ held.number = e.number := by
  have hnodup := nodup_numbers_live capacity policy ops
  unfold live at hnodup
  rw [Registry.live_eq] at hnodup
  unfold indexOf?
  rw [Registry.position?_eq, findIdx?_number_eq_some_iff hnodup]
  simp only [get?_eq_some_iff]

theorem indexOf?_eq_some_iff {e : Element α} (he : e ∈ stored ops (new capacity policy))
    {i : Nat} :
    (reached capacity policy ops).indexOf? e = some i ↔
      (reached capacity policy ops).get? i = some e := by
  rw [indexOf?_reached]
  constructor
  · rintro ⟨held, hheld, hnumber⟩
    have hstored := mem_stored_of_mem_live (mem_live_iff.mpr ⟨i, hheld⟩)
    rw [← eq_of_number_eq hstored he hnumber]
    exact hheld
  · intro h
    exact ⟨e, h, rfl⟩

theorem isSome_indexOf?_iff {e : Element α} (he : e ∈ stored ops (new capacity policy)) :
    ((reached capacity policy ops).indexOf? e).isSome ↔ e ∈ (reached capacity policy ops).live := by
  simp only [Option.isSome_iff_exists, indexOf?_eq_some_iff he, mem_live_iff]

theorem indexOf?_of_gone {e : Element α} (he : e ∈ gone ops (new capacity policy)) :
    (reached capacity policy ops).indexOf? e = none := by
  cases h : (reached capacity policy ops).indexOf? e with
  | none => rfl
  | some i =>
      obtain ⟨held, hheld, hnumber⟩ := indexOf?_reached.mp h
      exact absurd hnumber (number_ne_of_gone he (mem_live_iff.mpr ⟨i, hheld⟩))

theorem reached_append (capacity : Nat) (policy : IndexPolicy) (ops later : List (Operation α)) :
    reached capacity policy (ops ++ later) = (run perform later (reached capacity policy ops)).2 :=
  run_append_state perform ops later (new capacity policy)

theorem isSome_indexOf?_of_entering {op : Operation α} {e : Element α}
    (he : e ∈ entering op (reached capacity policy ops)) :
    ((perform op (reached capacity policy ops)).2.indexOf? e).isSome := by
  have hnext : (perform op (reached capacity policy ops)).2 =
      reached capacity policy (ops ++ [op]) :=
    (reached_append capacity policy ops [op]).symm
  have hstored : e ∈ stored (ops ++ [op]) (new capacity policy) := by
    unfold stored
    rw [history_append]
    refine List.mem_append_right _ ?_
    show e ∈ entering op (reached capacity policy ops) ++ []
    rw [List.append_nil]
    exact he
  obtain ⟨out, into, ⟨before, after, -, hslots⟩, -, hinto⟩ :=
    (perform_replaces op (reached capacity policy ops)).slots
  have hlive : e ∈ (perform op (reached capacity policy ops)).2.live := by
    unfold live
    rw [Registry.live_eq, hslots, List.filterMap_append, List.filterMap_append, hinto]
    exact List.mem_append_left _ (List.mem_append_right _ he)
  rw [hnext] at hlive ⊢
  exact (isSome_indexOf?_iff hstored).mpr hlive

/-- The element that a reply hands out is the one that enters. -/
theorem entering_of_stored {op : Operation α} {r : OwnedRegistry α} {e : Element α}
    (h : (perform op r).1 = .stored e) : entering op r = [e] := by
  obtain ⟨registry, issued⟩ := r
  cases op with
  | append a =>
      cases h
      rfl
  | insert a at? =>
      cases hi : Registry.insert (⟨issued, a⟩ : Element α) at? registry with
      | ok i registry' =>
          unfold entering
          rw [perform_insert_of_ok hi] at h ⊢
          cases h
          rfl
      | error err registry' =>
          rw [perform_insert_of_error hi] at h
          cases h
  | set i a =>
      cases hi : Registry.set i (⟨issued, a⟩ : Element α) registry with
      | ok u registry' =>
          rw [perform_set_of_ok hi] at h
          cases h
      | error err registry' =>
          rw [perform_set_of_error hi] at h
          cases h
  | _ => cases h

/-! ### Cells -/

/-- The operation on the slots: a value that comes in is an element of the next number. -/
def Operation.onSlots (issued : Nat) : Operation α → Registry.Operation (Element α)
  | .append a => .append ⟨issued, a⟩
  | .insert a at? => .insert ⟨issued, a⟩ at?
  | .set i a => .set i ⟨issued, a⟩
  | .remove i => .remove i
  | .clear => .clear
  | .applyOptions options => .applyOptions options
  | .get i => .get i
  | .indexOf e => .position fun held => held.number == e.number

/-- The operations on the slots in a run. -/
def slotOperations : List (Operation α) → OwnedRegistry α → List (Registry.Operation (Element α)) :=
  history perform fun op r => [op.onSlots r.issued]

theorem registry_perform (op : Operation α) (r : OwnedRegistry α) :
    (perform op r).2.registry = (Registry.perform (op.onSlots r.issued) r.registry).2 := by
  obtain ⟨registry, issued⟩ := r
  cases op with
  | insert a at? =>
      simp only [Operation.onSlots, Registry.perform]
      cases hi : Registry.insert (⟨issued, a⟩ : Element α) at? registry with
      | ok i registry' => exact congrArg (·.2.registry) (perform_insert_of_ok hi)
      | error err registry' => exact congrArg (·.2.registry) (perform_insert_of_error hi)
  | set i a =>
      simp only [Operation.onSlots, Registry.perform]
      cases hi : Registry.set i (⟨issued, a⟩ : Element α) registry with
      | ok u registry' => exact congrArg (·.2.registry) (perform_set_of_ok hi)
      | error err registry' => exact congrArg (·.2.registry) (perform_set_of_error hi)
  | _ => rfl

theorem registry_run (ops : List (Operation α)) (r : OwnedRegistry α) :
    (run perform ops r).2.registry =
      (run Registry.perform (slotOperations ops r) r.registry).2 := by
  induction ops generalizing r with
  | nil => rfl
  | cons op ops ih =>
      rw [run_cons_state, ih, registry_perform]
      rfl

/-- The cells that the slots are stored in after a run. -/
def cells (capacity : Nat) (policy : IndexPolicy) (ops : List (Operation α)) :
    Buffer (Element α) :=
  (run Buffer.perform (slotOperations ops (new capacity policy)) (Buffer.new capacity policy)).2

theorem cells_eq (capacity : Nat) (policy : IndexPolicy) (ops : List (Operation α)) :
    cells capacity policy ops = (reached capacity policy ops).registry.toSequence.layout := by
  have hregistry := registry_run ops (new capacity policy)
  unfold reached
  rw [hregistry]
  exact (Registry.run_new_layout capacity policy _).1

/-! ### Exactness -/

/-- What becomes of the elements of a registry in a run from a new one. -/
structure IdentityExact (capacity : Nat) (policy : IndexPolicy) (ops : List (Operation α)) :
    Prop where
  /-- A value that is stored becomes an element of its own, whatever values it is equal to. -/
  numbered : (stored ops (new capacity policy)).map Element.number =
    List.range' 0 (stored ops (new capacity policy)).length
  /-- An element that has been stored is held or gone, and there it is once. -/
  conserved : (stored ops (new capacity policy)).Perm
    (gone ops (new capacity policy) ++ (reached capacity policy ops).live)
  /-- What is held has been stored. -/
  origin : ∀ i e, (reached capacity policy ops).get? i = some e →
    e ∈ stored ops (new capacity policy)
  /-- An element is in one slot at most. -/
  once : ∀ i j e, (reached capacity policy ops).get? i = some e →
    (reached capacity policy ops).get? j = some e → i = j
  /-- It is found at the index that holds it, and at no other. -/
  index : ∀ e ∈ stored ops (new capacity policy), ∀ i,
    (reached capacity policy ops).indexOf? e = some i ↔
      (reached capacity policy ops).get? i = some e
  /-- It is there as long as no operation has taken it out. -/
  present : ∀ e ∈ stored ops (new capacity policy),
    ((reached capacity policy ops).indexOf? e).isSome ↔ e ∉ gone ops (new capacity policy)
  /-- Once one has, it is found no more in the rest of the run. -/
  absent : ∀ e ∈ gone ops (new capacity policy), ∀ later,
    (reached capacity policy (ops ++ later)).indexOf? e = none
  /-- The next operation replaces the elements that leave, which were side by side, by the one
  that enters, and keeps all other slots in order. -/
  next : ∀ op, Replaces op (reached capacity policy ops)
  /-- What enters is found at once. -/
  entered : ∀ op, ∀ e ∈ entering op (reached capacity policy ops),
    ((perform op (reached capacity policy ops)).2.indexOf? e).isSome
  /-- What a reply hands out is what enters. -/
  handedOut : ∀ op e, (perform op (reached capacity policy ops)).1 = .stored e →
    entering op (reached capacity policy ops) = [e]
  /-- The cells in use are the slots, and those behind them hold nothing. -/
  laidOut : cells capacity policy ops = (reached capacity policy ops).registry.toSequence.layout ∧
    (cells capacity policy ops).cells.filterMap id = (reached capacity policy ops).live

/-- In every run from a new registry the elements keep their identity. -/
theorem identity_exact (capacity : Nat) (policy : IndexPolicy) (ops : List (Operation α)) :
    IdentityExact capacity policy ops where
  numbered := map_number_stored ops (new capacity policy)
  conserved := stored_perm capacity policy ops
  origin := fun i e h => mem_stored_of_mem_live (mem_live_iff.mpr ⟨i, h⟩)
  once := by
    intro i j e hi hj
    have hstored := mem_stored_of_mem_live (mem_live_iff.mpr ⟨i, hi⟩)
    have hindex := (indexOf?_eq_some_iff hstored).mpr hi
    rw [(indexOf?_eq_some_iff hstored).mpr hj] at hindex
    exact (Option.some.inj hindex).symm
  index := fun e he i => indexOf?_eq_some_iff he
  present := by
    intro e he
    rw [isSome_indexOf?_iff he]
    constructor
    · intro hlive hgone
      exact number_ne_of_gone hgone hlive rfl
    · intro hgone
      have hmem := (stored_perm capacity policy ops).mem_iff.mp he
      exact (List.mem_append.mp hmem).resolve_left hgone
  absent := by
    intro e he later
    refine indexOf?_of_gone ?_
    unfold gone
    rw [history_append]
    exact List.mem_append_left _ he
  next := fun op => perform_replaces op _
  entered := fun op e he => isSome_indexOf?_of_entering he
  handedOut := fun op e h => entering_of_stored h
  laidOut := by
    refine ⟨cells_eq capacity policy ops, ?_⟩
    rw [cells_eq]
    unfold Sequence.layout live
    rw [List.filterMap_append, List.filterMap_replicate_of_none rfl, List.append_nil,
      Registry.live_eq]
    rfl

end OwnedRegistry

end ExpressModel
