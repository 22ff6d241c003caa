import Mathlib
import ExpressModel.Proofs.Config.Overlay
import ExpressModel.Proofs.Declaration.Traversal
import ExpressModel.Proofs.Toml.Lines

/-! # Tables written and read

Plain tables are written as lines: a header for each table, an assignment for each of its entries,
and an empty line between tables (`written_printed`).  The statements on these lines put the tables
together again, one entry after another (`foldlM_statements`).  So what is written is read as what
it was written for, and only numbers that are too large cannot be written (`plain_writes`). -/

namespace ExpressModel

open Toml

/-! ### Printing -/

theorem Text.le_maxInt64_iff {n : Nat} : n ≤ Text.maxInt64 ↔ n < 2 ^ 63 := by
  rw [show Text.maxInt64 = 2 ^ 63 - 1 from rfl]
  omega

theorem Scalar.exists_printed_iff {v : Scalar} :
    (∃ text, v.printed = .ok text) ↔ ∀ n, v = .integer n → n < 2 ^ 63 := by
  cases v with
  | integer n =>
      show (∃ text, (if n ≤ Text.maxInt64 then _ else _) = Except.ok text) ↔ _
      by_cases h : n ≤ Text.maxInt64
      · simp only [if_pos h]
        rw [Text.le_maxInt64_iff] at h
        simpa using h
      · simp only [if_neg h]
        rw [Text.le_maxInt64_iff] at h
        simpa using h
  | text s => simp [printed]
  | boolean b => simp [printed]

namespace Tables

theorem exists_printed_iff (tables : Tables) : (∃ text, tables.printed = .ok text) ↔
    ∀ t ∈ tables, ∀ e ∈ t.2, ∀ n, e.2 = .integer n → n < 2 ^ 63 := by
  unfold printed
  rw [Traversal.exists_map_eq_ok_iff, Traversal.exists_mapM_eq_ok_iff]
  refine forall₂_congr fun t _ => ?_
  unfold printedTable
  rw [Traversal.exists_map_eq_ok_iff, Traversal.exists_mapM_eq_ok_iff]
  refine forall₂_congr fun e _ => ?_
  unfold printedEntry
  rw [Traversal.exists_map_eq_ok_iff, Scalar.exists_printed_iff]

/-! ### Lines -/

theorem isBareKey_of_isName {name : String} (h : isName name) : IsBareKey name.toList where
  ne_nil := ne_nil_of_isName h
  bare := by
    intro c hc
    unfold isBareKeyChar Char.isAlphanum Char.isAlpha
    rcases char_of_isName h hc with hlower | rfl
    · simp [hlower]
    · rfl

theorem readsValue_name {s : String} (h : isName s) :
    ReadsValue ('"' :: (s.toList ++ ['"'])) (.text s) := by
  have hplain : ∀ c ∈ s.toList, isVisible c = true ∧ c ≠ '"' ∧ c ≠ '\\' := by
    intro c hc
    have hquote : '"' ∉ s.toList := not_mem_of_isName h (by decide) (by decide)
    have hescape : '\\' ∉ s.toList := not_mem_of_isName h (by decide) (by decide)
    refine ⟨?_, fun heq => hquote (heq ▸ hc), fun heq => hescape (heq ▸ hc)⟩
    rcases char_of_isName h hc with hlower | rfl
    · have hdelete : c ≠ '\x7f' := ne_of_apply_ne Char.isLower (by rw [hlower]; decide)
      have hblank : ' ' ≤ c := by
        have hrange : 97 ≤ c.val ∧ c.val ≤ 122 := by simpa [Char.isLower] using hlower
        have hlow : (32 : UInt32) ≤ 97 := by decide
        exact Char.le_def.mpr (UInt32.le_trans hlow hrange.1)
      simp [isVisible, hdelete, hblank]
    · rfl
  have hquoted := readsValue_quoted hplain
  rwa [String.ofList_toList] at hquoted

theorem readsValue_printed {v : Scalar} {text : String} (h : v.printed = .ok text)
    (hname : ∀ s, v = .text s → isName s) : ReadsValue text.toList v.setting := by
  cases v with
  | integer n =>
      have h : (if n ≤ Text.maxInt64 then Except.ok (toString n)
          else .error (ConfigFault.notWritable n)) = .ok text := h
      split at h
      · next hn =>
        cases h
        rw [Nat.toString_eq_ofList_toDigits, String.toList_ofList]
        exact readsValue_toDigits hn
      · cases h
  | text s =>
      cases h
      have hquoted := readsValue_name (hname s rfl)
      simpa [Scalar.setting] using hquoted
  | boolean b =>
      cases h
      cases b with
      | false => exact readsValue_false
      | true => exact readsValue_true

def assignment (e : String × Scalar) : Statement :=
  .assign [e.1] e.2.setting

def tableStatements (t : String × List (String × Scalar)) : List Statement :=
  .table [t.1] :: t.2.map assignment

theorem written_printedEntry {e : String × Scalar} {line : String} {text : List Char}
    {statements : List Statement} (h : printedEntry e = .ok line) (hkey : isName e.1)
    (hname : ∀ s, e.2 = .text s → isName s) (htext : Written text statements) :
    Written (line.toList ++ text) (assignment e :: statements) := by
  obtain ⟨value, hvalue, rfl⟩ := Traversal.map_eq_ok_iff.mp h
  have hline := Written.line (reads_assignment (isBareKey_of_isName hkey)
    (readsValue_printed hvalue hname)) htext
  rw [String.ofList_toList] at hline
  unfold assignment
  simpa using hline

theorem written_printedEntries {es : List (String × Scalar)} {lines : List String}
    {text : List Char} {statements : List Statement}
    (h : List.Forall₂ (fun e line => printedEntry e = .ok line) es lines)
    (hkeys : ∀ e ∈ es, isName e.1) (hnames : ∀ e ∈ es, ∀ s, e.2 = .text s → isName s)
    (htext : Written text statements) :
    Written ((String.join lines).toList ++ text) (es.map assignment ++ statements) := by
  induction h with
  | nil => exact htext
  | @cons e line es lines hentry _ ih =>
      have hrest := ih (fun e he => hkeys e (List.mem_cons_of_mem _ he))
        (fun e he => hnames e (List.mem_cons_of_mem _ he))
      have hline := written_printedEntry hentry (hkeys e List.mem_cons_self)
        (hnames e List.mem_cons_self) hrest
      rw [String.toList_join, List.flatMap_cons, List.append_assoc, ← String.toList_join]
      exact hline

theorem written_printedTable {t : String × List (String × Scalar)} {table : String}
    {text : List Char} {statements : List Statement} (h : printedTable t = .ok table)
    (hname : isName t.1) (hkeys : ∀ e ∈ t.2, isName e.1)
    (hnames : ∀ e ∈ t.2, ∀ s, e.2 = .text s → isName s) (htext : Written text statements) :
    Written (table.toList ++ text) (tableStatements t ++ statements) := by
  obtain ⟨lines, hlines, rfl⟩ := Traversal.map_eq_ok_iff.mp h
  have hentries := written_printedEntries (Traversal.mapM_eq_ok_iff.mp hlines) hkeys hnames htext
  have hheader := Written.line (reads_header (isBareKey_of_isName hname)) hentries
  rw [String.ofList_toList] at hheader
  unfold tableStatements
  simpa using hheader

/-- What is written is made of the lines of the tables. -/
theorem written_printed {tables : Tables} {text : String} (hplain : tables.IsPlain)
    (h : tables.printed = .ok text) : Written text.toList (tables.flatMap tableStatements) := by
  obtain ⟨texts, htexts, rfl⟩ := Traversal.map_eq_ok_iff.mp h
  rw [Traversal.mapM_eq_ok_iff] at htexts
  have hnames := hplain.names
  have hkeys := hplain.keys
  have hwords := hplain.texts
  clear h hplain
  induction htexts with
  | nil => exact .nil
  | @cons t table tables texts htable hrest ih =>
      have hothers := ih (fun t ht => hnames t (List.mem_cons_of_mem _ ht))
        (fun t ht => hkeys t (List.mem_cons_of_mem _ ht))
        (fun t ht => hwords t (List.mem_cons_of_mem _ ht))
      have hname := hnames t List.mem_cons_self
      have hkey := hkeys t List.mem_cons_self
      have hword := hwords t List.mem_cons_self
      cases texts with
      | nil =>
          cases hrest
          have hlast := written_printedTable htable hname hkey hword .nil
          simpa using hlast
      | cons next texts =>
          have hfirst := written_printedTable htable hname hkey hword (.blank hothers)
          rw [String.intercalate_cons_cons, List.flatMap_cons]
          simpa using hfirst

/-! ### Documents -/

theorem putEntry_of_not_mem {key : String} {v : Setting} {entries : List (String × Setting)}
    (h : key ∉ entries.map Prod.fst) : Setting.putEntry key v entries = entries ++ [(key, v)] := by
  induction entries with
  | nil => rfl
  | cons e entries ih =>
      obtain ⟨k, u⟩ := e
      rw [List.map_cons, List.mem_cons, not_or] at h
      rw [Setting.putEntry, if_neg (Ne.symm h.1), ih h.2]
      rfl

theorem putEntry_last {key : String} {v u : Setting} {entries : List (String × Setting)}
    (h : key ∉ entries.map Prod.fst) :
    Setting.putEntry key v (entries ++ [(key, u)]) = entries ++ [(key, v)] := by
  induction entries with
  | nil => exact if_pos rfl
  | cons e entries ih =>
      obtain ⟨k, w⟩ := e
      rw [List.map_cons, List.mem_cons, not_or] at h
      rw [List.cons_append, Setting.putEntry, if_neg (Ne.symm h.1), ih h.2]
      rfl

theorem lookup_last {key : String} {v : Setting} {entries : List (String × Setting)}
    (h : key ∉ entries.map Prod.fst) : (entries ++ [(key, v)]).lookup key = some v := by
  rw [List.lookup_append, Setting.lookup_of_not_mem h, Option.none_or]
  exact List.lookup_cons_self

section Documents

variable {d : Document} {name : String} {done es : List (String × Setting)}

/-- The document with a further table, whose header has been read. -/
theorem step?_table (hroot : d.root = .table done) (hname : name ∉ done.map Prod.fst) :
    ∃ d', d.step? (.table [name]) = some d' ∧ d'.current = [name] ∧
      d'.root = .table (done ++ [(name, .table [])]) := by
  have hnone : Document.valueAt? [name] (.table done) = none := by
    simp [Document.valueAt?, Setting.valueOf?, Setting.entries, Setting.lookup_of_not_mem hname]
  have hput : Document.setAt (.table []) [name] (.table done) =
      .table (done ++ [(name, .table [])]) :=
    congrArg Setting.table (putEntry_of_not_mem hname)
  refine ⟨{ d with current := [name] }.openTable [name] (.table []) .header, ?_, rfl, ?_⟩
  · have hreach : d.reachHeader? [name] = some d := rfl
    simp only [Document.step?, hreach, Option.bind_eq_bind, Option.bind_some, hroot, hnone]
    rfl
  · show Document.setAt (.table []) [name] d.root = _
    rw [hroot, hput]

/-- The document with a further entry in its last table. -/
theorem step?_assign {key : String} {v : Setting}
    (hroot : d.root = .table (done ++ [(name, .table es)])) (hcurrent : d.current = [name])
    (hname : name ∉ done.map Prod.fst) (hkey : key ∉ es.map Prod.fst) :
    d.step? (.assign [key] v) =
      some { d with root := .table (done ++ [(name, .table (es ++ [(key, v)]))]) } := by
  have hlast := lookup_last (v := .table es) hname
  have hnone : Document.valueAt? [name, key] d.root = none := by
    simp [hroot, Document.valueAt?, Setting.valueOf?, Setting.entries, hlast,
      Setting.lookup_of_not_mem hkey]
  have hput : Document.setAt v [name, key] d.root =
      .table (done ++ [(name, .table (es ++ [(key, v)]))]) := by
    simp [hroot, Document.setAt, Document.updateAt, Setting.put, Setting.valueOf?,
      Setting.entries, hlast, putEntry_of_not_mem hkey, putEntry_last hname]
  have hreach : d.reachDotted? [key] = some d := rfl
  simp only [Document.step?, hreach, Option.bind_eq_bind, Option.bind_some, hcurrent,
    List.singleton_append, hnone, hput]
  rfl

theorem foldlM_assignments {entries : List (String × Scalar)}
    (hroot : d.root = .table (done ++ [(name, .table es)])) (hcurrent : d.current = [name])
    (hname : name ∉ done.map Prod.fst)
    (hkeys : (es.map Prod.fst ++ entries.map Prod.fst).Nodup) :
    ∃ d', (entries.map assignment).foldlM Document.step? d = some d' ∧
      d'.root =
        .table (done ++ [(name, .table (es ++ entries.map fun e => (e.1, e.2.setting)))]) := by
  induction entries generalizing d es with
  | nil => exact ⟨d, rfl, by simpa using hroot⟩
  | cons e entries ih =>
      have hkey : e.1 ∉ es.map Prod.fst := by
        intro hmem
        exact (List.nodup_append.mp hkeys).2.2 _ hmem _ List.mem_cons_self rfl
      have hrest : ((es ++ [(e.1, e.2.setting)]).map Prod.fst ++ entries.map Prod.fst).Nodup := by
        simpa using hkeys
      have hstep := step?_assign (v := e.2.setting) hroot hcurrent hname hkey
      obtain ⟨d', hfold, hresult⟩ := ih (d := { d with root := _ }) rfl hcurrent hrest
      refine ⟨d', ?_, ?_⟩
      · rw [List.map_cons, List.foldlM_cons]
        show (d.step? (Statement.assign [e.1] e.2.setting) >>= _) = _
        rw [hstep]
        exact hfold
      · rw [hresult, List.append_assoc]
        rfl

/-- The statements of tables put them together, behind what was there. -/
theorem foldlM_statements {tables : Tables} (hroot : d.root = .table done)
    (hnames : (done.map Prod.fst ++ tables.map Prod.fst).Nodup)
    (hkeys : ∀ t ∈ tables, (t.2.map Prod.fst).Nodup) :
    ∃ d', (tables.flatMap tableStatements).foldlM Document.step? d = some d' ∧
      d'.root = .table (done ++ tables.layer) := by
  induction tables generalizing d done with
  | nil => exact ⟨d, rfl, by simpa [layer] using hroot⟩
  | cons t tables ih =>
      have hname : t.1 ∉ done.map Prod.fst := by
        intro hmem
        exact (List.nodup_append.mp hnames).2.2 _ hmem _ List.mem_cons_self rfl
      obtain ⟨opened, hopened, hcurrent, hopenedRoot⟩ := step?_table hroot hname
      obtain ⟨filled, hfilled, hfilledRoot⟩ :=
        foldlM_assignments hopenedRoot hcurrent hname (hkeys t List.mem_cons_self)
      have hrest : ((done ++ [(t.1, Setting.table (t.2.map fun e => (e.1, e.2.setting)))]).map
          Prod.fst ++ tables.map Prod.fst).Nodup := by
        simpa using hnames
      obtain ⟨d', hfold, hresult⟩ :=
        ih hfilledRoot hrest fun t ht => hkeys t (List.mem_cons_of_mem _ ht)
      refine ⟨d', ?_, ?_⟩
      · rw [List.flatMap_cons, tableStatements, List.cons_append, List.foldlM_cons, hopened,
          Option.bind_eq_bind, Option.bind_some, List.foldlM_append, hfilled]
        exact hfold
      · rw [hresult, List.append_assoc]
        rfl

end Documents

/-! ### Reading -/

theorem withDates?_setting (v : Scalar) : withDates? v.setting = some v.setting := by
  cases v <;> rfl

theorem ne_dateKey_of_isName {name : String} (h : isName name) : name ≠ dateKey := by
  rintro rfl
  exact absurd h (by decide)

theorem entriesWithDates?_eq {entries : List (String × Setting)}
    (h : ∀ e ∈ entries, withDates? e.2 = some e.2) : entriesWithDates? entries = some entries := by
  induction entries with
  | nil => rfl
  | cons e entries ih =>
      rw [entriesWithDates?, h e List.mem_cons_self,
        ih fun e he => h e (List.mem_cons_of_mem _ he)]
      rfl

theorem withDates?_table {entries : List (String × Setting)} (hnames : ∀ e ∈ entries, isName e.1)
    (h : ∀ e ∈ entries, withDates? e.2 = some e.2) :
    withDates? (.table entries) = some (.table entries) := by
  cases entries with
  | nil => rfl
  | cons e entries =>
      rw [withDates?, if_neg (ne_dateKey_of_isName (hnames e List.mem_cons_self)),
        h e List.mem_cons_self, entriesWithDates?_eq fun e he => h e (List.mem_cons_of_mem _ he)]
      rfl

theorem withDates?_layer {tables : Tables} (hplain : tables.IsPlain) :
    withDates? (.table tables.layer) = some (.table tables.layer) := by
  have hlayer : ∀ e ∈ tables.layer, isName e.1 ∧ withDates? e.2 = some e.2 := by
    intro e he
    obtain ⟨t, ht, rfl⟩ := List.mem_map.mp he
    refine ⟨hplain.names t ht, withDates?_table ?_ ?_⟩
    · intro e' he'
      obtain ⟨entry, hentry, rfl⟩ := List.mem_map.mp he'
      exact hplain.keys t ht entry hentry
    · intro e' he'
      obtain ⟨entry, hentry, rfl⟩ := List.mem_map.mp he'
      exact withDates?_setting entry.2
  exact withDates?_table (fun e he => (hlayer e he).1) fun e he => (hlayer e he).2

theorem ne_mark_of_printed {tables : Tables} {text : String} (h : tables.printed = .ok text)
    (cs : List Char) : text.toList ≠ '\uFEFF' :: cs := by
  obtain ⟨texts, htexts, rfl⟩ := Traversal.map_eq_ok_iff.mp h
  rw [Traversal.mapM_eq_ok_iff] at htexts
  cases htexts with
  | nil => simp
  | @cons t table tables texts htable hrest =>
      obtain ⟨lines, -, rfl⟩ := Traversal.map_eq_ok_iff.mp htable
      cases texts <;> simp [String.intercalate_cons_cons]

theorem parse?_printed {tables : Tables} {text : String} (hplain : tables.IsPlain)
    (h : tables.printed = .ok text) : parse? text = some tables.layer := by
  have hread := (written_printed hplain h).readStatements_eq (Nat.lt_succ_self _)
  have hroot : ({} : Document).root = .table [] := rfl
  obtain ⟨d, hdocument, hroot⟩ := foldlM_statements hroot hplain.nodup hplain.keys_nodup
  rw [List.nil_append] at hroot
  unfold parse?
  dsimp only
  split
  · next cs heq => exact absurd heq (ne_mark_of_printed h cs)
  · rw [hread, Option.bind_eq_bind, Option.bind_some]
    unfold Document.ofStatements?
    rw [hdocument, Option.bind_eq_bind, Option.bind_some, hroot, withDates?_layer hplain]
    rfl

end Tables

theorem SettingsLibrary.plain_writes : SettingsLibrary.plain.Writes where
  ok_iff := fun tables _ => tables.exists_printed_iff
  parse := by
    rintro tables text path hplain htext ⟨front, c, -, hpath⟩
    have hending : fileEnding.toList.isSuffixOf path.toList = true := by
      rw [hpath, List.isSuffixOf_iff_suffix]
      exact ⟨front ++ [c], by simp [fileEnding]⟩
    show (if fileEnding.toList.isSuffixOf path.toList = true then _ else _) = _
    rw [if_pos hending, Tables.parse?_printed hplain htext]
    rfl

end ExpressModel
