import CeilingGate.CommandLine.CheckConfig
import CeilingGate.Proofs.Policy.Amounts
import CeilingGate.Proofs.Policy.Refused

/-! The table of a policy that has been loaded. It has one row for the defaults and one for each override,
in order, and the row of a target shows what applies to the target. It is printed unless the console fails
on it. -/
namespace CeilingGate

theorem ne_unlimited_of_isFinite {q : Quantity} (h : q.IsFinite) : q.text ≠ "unlimited" := by
  intro htext
  obtain ⟨d, hd⟩ := h
  have hnone : Numeral.parse? (Quantity.splitSuffix "unlimited".toList).1 = none := by decide
  rw [htext, hnone] at hd
  cases hd

/-- The order of overrides of names: by namespace, then by name. -/
def Target.Precedes (t t' : Target) : Prop :=
  t.namespaceName < t'.namespaceName ∨ (t.namespaceName = t'.namespaceName ∧ t.name < t'.name)

variable {s t t' : Target}

theorem Target.Precedes.trans (h : s.Precedes t) (h' : t.Precedes t') : s.Precedes t' := by
  obtain h | ⟨he, h⟩ := h <;> obtain h' | ⟨he', h'⟩ := h'
  · exact Or.inl (RawText.lt_trans h h')
  · exact Or.inl (he' ▸ h)
  · exact Or.inl (he ▸ h')
  · exact Or.inr ⟨he.trans he', RawText.lt_trans h h'⟩

theorem Target.precedes_of_ne (h : t ≠ t') : t.Precedes t' ∨ t'.Precedes t := by
  by_cases hns : t.namespaceName = t'.namespaceName
  · have hname : t.name ≠ t'.name := by
      intro hname
      exact h (congrArg₂ Target.mk hname hns)
    exact (RawText.lt_or_gt_of_ne hname).imp (fun h => Or.inr ⟨hns, h⟩) fun h => Or.inr ⟨hns.symm, h⟩
  · exact (RawText.lt_or_gt_of_ne hns).imp Or.inl Or.inl

namespace Policy

open CeilingGate.CommandLine

variable {c : Ceiling} {g : Generation} {title : RawText} {files : Files} {p : Path} {path : String}
  {console : Console} {looks : List RawText → List RawText → Prop}

/-! ## The order of the rows -/

theorem sortedNamespaces_pairwise (h : (g.namespaces.map (·.1)).Nodup) :
    (g.sortedNamespaces.map (·.1)).Pairwise (· < ·) :=
  Text.pairwise_keys_sortBy (fun _ _ => decide_eq_true_iff) (fun _ _ _ => RawText.lt_trans)
    (fun _ _ => RawText.lt_or_gt_of_ne) h

theorem sortedNames_pairwise (h : (g.names.map (·.1)).Nodup) :
    (g.sortedNames.map (·.1)).Pairwise Target.Precedes := by
  refine Text.pairwise_keys_sortBy (fun x y => ?_) (fun _ _ _ => Target.Precedes.trans)
    (fun _ _ => Target.precedes_of_ne) h
  simp [Target.Precedes]

theorem parse_of_load (h : load files p = .ok g) :
    ∃ s, parse (.text s) (some (.plain p.text)) = .ok g := by
  unfold load at h
  split at h
  · cases h
  · split at h
    · next s _ => exact ⟨s, h⟩
    · cases h

/-! ## What a row shows -/

/-- The quantity as a cell shows it. -/
def limitText (q? : Option Quantity) : RawText :=
  match q? with
  | some q => q.text
  | none => "-"

/-- The columns behind the first, with the limits that they show. -/
def columns : List (RawText × Dimension) :=
  [("CPU limit", .cpuLimit), ("Memory limit", .memoryLimit), ("CPU request", .cpuRequest),
    ("Memory request", .memoryRequest), ("PVC size", .storage)]

theorem row_of_limited (h : c.isUnlimited = false) :
    c.row title = title :: columns.map fun col => limitText (c.limit? col.2) := by
  have hcell : ∀ d, c.cell d = limitText (c.limit? d) := by
    intro d
    unfold Ceiling.cell limitText
    cases c.limit? d <;> rfl
  simp [Ceiling.row, h, hcell, Dimension.all, columns]

theorem row_of_unlimited (h : c.isUnlimited = true) :
    c.row title = title :: List.replicate 5 "unlimited" := by
  simp [Ceiling.row, h, Dimension.all, List.replicate]

/-- No cell of a ceiling that is limited says otherwise. -/
theorem limitText_ne_unlimited (h : c.HasAmounts) (d : Dimension) :
    limitText (c.limit? d) ≠ "unlimited" := by
  unfold limitText
  split
  · next q hq => exact fun he => ne_unlimited_of_isFinite (h d q hq).isFinite (RawText.plain.inj he)
  · decide

theorem row_tail_eq_unlimited_iff (h : c.HasAmounts) :
    (c.row title).tail = List.replicate 5 "unlimited" ↔ c.isUnlimited = true := by
  cases hu : c.isUnlimited with
  | true => simp [row_of_unlimited hu]
  | false =>
    have hne := limitText_ne_unlimited h .cpuLimit
    simp [row_of_limited hu, columns, List.replicate, hne]

/-- The row of the entry that applies to a target. -/
def Generation.rowOf (g : Generation) (t : Target) : List RawText :=
  match g.names.lookup t with
  | some c => c.row (t.namespaceName ++ "/" ++ t.name)
  | none =>
    match g.namespaces.lookup t.namespaceName with
    | some c => c.row ("namespace " ++ t.namespaceName)
    | none => g.defaults.row "global"

theorem rowOf_eq (g : Generation) (t : Target) : ∃ title, g.rowOf t = (g.entry t).row title := by
  unfold Generation.rowOf Generation.entry
  cases g.names.lookup t with
  | some c => exact ⟨_, rfl⟩
  | none =>
    cases g.namespaces.lookup t.namespaceName with
    | some c => exact ⟨_, rfl⟩
    | none => exact ⟨_, rfl⟩

theorem isExcluded_eq (g : Generation) (t : Target) : g.isExcluded t = (g.entry t).isUnlimited := by
  unfold Generation.isExcluded
  cases hu : (g.entry t).isUnlimited with
  | true => rw [resolve_of_unlimited hu, Ceiling.unlimited]
  | false => rw [resolve_of_limited hu, hu]

/-- The row of a target is one of the table. -/
theorem rowOf_mem_rows (g : Generation) (t : Target) : g.rowOf t ∈ g.rows := by
  have hspaces : g.sortedNamespaces.Perm g.namespaces := Text.perm_sortBy _ _
  have hnames : g.sortedNames.Perm g.names := Text.perm_sortBy _ _
  unfold Generation.rowOf Generation.rows
  rw [List.mem_append, List.mem_cons]
  cases hn : g.names.lookup t with
  | some c =>
    obtain ⟨before, after, he, _⟩ := List.lookup_eq_some_iff.mp hn
    have hmem : (t, c) ∈ g.sortedNames := hnames.mem_iff.mpr (by simp [he])
    exact Or.inr (List.mem_map.mpr ⟨(t, c), hmem, rfl⟩)
  | none =>
    cases hs : g.namespaces.lookup t.namespaceName with
    | some c =>
      obtain ⟨before, after, he, _⟩ := List.lookup_eq_some_iff.mp hs
      have hmem : (t.namespaceName, c) ∈ g.sortedNamespaces := hspaces.mem_iff.mpr (by simp [he])
      exact Or.inl (Or.inr (List.mem_map.mpr ⟨_, hmem, rfl⟩))
    | none => exact Or.inl (Or.inl rfl)

/-- The row of a target shows what `resolve` gives. -/
structure ShowsResolve (g : Generation) (t : Target) : Prop where
  mem : g.rowOf t ∈ g.rows
  excluded : (g.rowOf t).tail = List.replicate 5 "unlimited" ↔ g.isExcluded t = true
  limits : g.isExcluded t = false →
    (g.rowOf t).tail = columns.map fun col => limitText ((g.resolve t).limit? col.2)

theorem showsResolve (h : ∀ c ∈ g.ceilings, c.HasAmounts) (t : Target) : ShowsResolve g t := by
  obtain ⟨title, hrow⟩ := rowOf_eq g t
  refine ⟨rowOf_mem_rows g t, ?_, ?_⟩
  · rw [hrow, row_tail_eq_unlimited_iff (h _ (entry_mem_ceilings g t)), isExcluded_eq]
  · intro hlimited
    rw [isExcluded_eq] at hlimited
    rw [hrow, row_of_limited hlimited, resolve_of_limited hlimited, List.tail_cons]

/-! ## What is printed -/

/-- A console shows the rows of a table one below the other, each in the looks that it gives a row. -/
structure ShowsRows (console : Console) (looks : List RawText → List RawText → Prop) : Prop where
  table : ∀ title headings rows lines, console (.table title headings rows) = .ok lines →
    ∃ top shownRows bottom, lines = top ++ shownRows.flatten ++ bottom ∧
      List.Forall₂ looks rows shownRows

/-- Lines show rows, all of them, in order and each once. -/
def RowsStandIn (looks : List RawText → List RawText → Prop) (rows : List (List RawText))
    (lines : List RawText) : Prop :=
  ∃ before shownRows after, lines = before ++ shownRows.flatten ++ after ∧
    List.Forall₂ looks rows shownRows

def isTable : Printout → Bool
  | .table .. => true
  | _ => false

theorem checkConfig_of_load (h : load files (.ofText path) = .ok g) (console : Console) :
    checkConfig console files path =
      .printing console (.done 0) (policyReport path g) [g.parsedEvent] := by
  unfold checkConfig
  rw [h]

theorem tables_policyReport : (policyReport path g).filter isTable =
    [.table "Resolved ceilings" Generation.headings g.rows] := rfl

/-- A check that the console lets end as it should has shown the rows. -/
theorem rowsStandIn_output (hc : ShowsRows console looks) (h : load files (.ofText path) = .ok g)
    (hdone : (checkConfig console files path).outcome = .done 0) :
    RowsStandIn looks g.rows (checkConfig console files path).output := by
  rw [checkConfig_of_load h] at hdone ⊢
  have htakes := printing_outcome_iff.mp hdone
  have htable : .table "Resolved ceilings" Generation.headings g.rows ∈ policyReport path g := by
    simp [policyReport]
  obtain ⟨before, lines, after, hlines, hshown⟩ := lines_of_shown (shown_eq_none_iff.mpr htakes) htable
  obtain ⟨top, shownRows, bottom, rfl, hlooks⟩ := hc.table _ _ _ _ hlines
  exact ⟨before ++ top, shownRows, bottom ++ after, by simp [Work.printing, hshown], hlooks⟩

/-- Checking a policy that loads is a success exactly if the console takes all that it is handed. There is one
table, with a row for the defaults, then one for each namespace that is overridden, in order, then one for
each name, by namespace and name; a check that is a success has shown these rows, each once and in
this order. The row of a target says five times that there is no limit exactly if the target is excluded, and
shows the limits that apply to it otherwise, each in its column. -/
theorem table_shows_resolve (h : load files (.ofText path) = .ok g) :
    (∀ console, (checkConfig console files path).outcome = .done 0 ↔
      ∀ p ∈ policyReport path g, ∃ lines, console p = .ok lines) ∧
    (∀ console looks, ShowsRows console looks →
      (checkConfig console files path).outcome = .done 0 →
        RowsStandIn looks g.rows (checkConfig console files path).output) ∧
    (policyReport path g).filter isTable =
      [.table "Resolved ceilings" ("Target" :: columns.map (·.1)) g.rows] ∧
    (∃ (spaces : List (RawText × Ceiling)) (names : List (Target × Ceiling)),
      g.rows = g.defaults.row "global" ::
        (spaces.map fun (n, c) => c.row ("namespace " ++ n)) ++
          (names.map fun (t, c) => c.row (t.namespaceName ++ "/" ++ t.name)) ∧
      spaces.Perm g.namespaces ∧ (spaces.map (·.1)).Pairwise (· < ·) ∧
      names.Perm g.names ∧ (names.map (·.1)).Pairwise Target.Precedes) ∧
    ∀ t, ShowsResolve g t := by
  obtain ⟨s, hparse⟩ := parse_of_load h
  obtain ⟨v, d, _, hread, hd⟩ := parse_eq_ok hparse
  obtain ⟨hspaces, hnames⟩ := nodup_of_readDocument hread
  rw [← generation_namespaces hd] at hspaces
  rw [← generation_names hd] at hnames
  refine ⟨fun console => ?_, fun _ _ hc => rowsStandIn_output hc h, tables_policyReport, ?_,
    showsResolve (generation_hasAmounts hd)⟩
  · rw [checkConfig_of_load h]
    exact printing_outcome_iff
  · exact ⟨g.sortedNamespaces, g.sortedNames, rfl, Text.perm_sortBy _ _,
      sortedNamespaces_pairwise hspaces, Text.perm_sortBy _ _, sortedNames_pairwise hnames⟩

/-- Two namespaces, of which the second in order is unlimited, and a name in that one. -/
def layeredText : String :=
  "customNamespaces: \x7bshop: \x7bunlimited: true\x7d, build: \x7bmaxCPULimit: 2\x7d\x7d\n" ++
    "customNames: \x7bshop/web: \x7bmaxMemLimit: 1Gi\x7d\x7d"

def layeredGeneration : Generation where
  defaults := ⟨⟨none, none, some .zero, some .zero, none⟩, false⟩
  names :=
    [(⟨"web", "shop"⟩,
      ⟨⟨none, some ⟨"1Gi", ⟨false, 1073741824, 0⟩⟩, some .zero, some .zero, none⟩, false⟩)]
  namespaces :=
    [("shop", ⟨⟨none, none, some .zero, some .zero, none⟩, true⟩),
      ("build", ⟨⟨some ⟨"2", ⟨false, 2, 0⟩⟩, none, some .zero, some .zero, none⟩, false⟩)]
  source? := some (.plain "policy.yaml")

def layeredFiles : Files := [(["policy.yaml"], Text.toUtf8 layeredText)]

/-- The rows of that policy on a screen. -/
def layeredRows : List RawText :=
  ["│ global          │ -         │ -            │ 0           │ 0              │ -         │",
    "│ namespace build │ 2         │ -            │ 0           │ 0              │ -         │",
    "│ namespace shop  │ unlimited │ unlimited    │ unlimited   │ unlimited      │ unlimited │",
    "│ shop/web        │ -         │ 1Gi          │ 0           │ 0              │ -         │"]

/-- What is above the rows. -/
def layeredTop : List RawText :=
  ["                                    Resolved ceilings",
    "┏━━━━━━━━━━━━━━━━━┳━━━━━━━━━━━┳━━━━━━━━━━━━━━┳━━━━━━━━━━━━━┳━━━━━━━━━━━━━━━━┳━━━━━━━━━━━┓",
    "┃ Target          ┃ CPU limit ┃ Memory limit ┃ CPU request ┃ Memory request ┃ PVC size  ┃",
    "┡━━━━━━━━━━━━━━━━━╇━━━━━━━━━━━╇━━━━━━━━━━━━━━╇━━━━━━━━━━━━━╇━━━━━━━━━━━━━━━━╇━━━━━━━━━━━┩"]

def layeredBottom : List RawText :=
  ["└─────────────────┴───────────┴──────────────┴─────────────┴────────────────┴───────────┘"]

/-- A screen that shows the table of that policy. -/
def layeredConsole : Console
  | .blank => .ok [""]
  | .line _ => .ok ["✓ policy document is valid"]
  | .panel _ => .ok ["╭─────────────────────╮", "│ Policy: policy.yaml │", "╰─────────────────────╯"]
  | .table _ _ rows =>
    if rows = layeredGeneration.rows then .ok (layeredTop ++ layeredRows ++ layeredBottom)
    else .error (.foreign "ValueError" "another table")
  | .json _ => .error (.foreign "ValueError" "no table")

/-- A row on one line, with a bar on both sides of each cell. -/
def StandsBetweenBars (row lines : List RawText) : Prop :=
  ∃ s : String, lines = [.plain s] ∧
    ((s.toList.splitOn '│').tail.dropLast.map fun cell =>
      RawText.plain (Text.strip (String.ofList cell))) = row

theorem layeredConsole_showsRows : ShowsRows layeredConsole StandsBetweenBars where
  table := by
    intro title headings rows lines h
    simp only [layeredConsole] at h
    split at h
    · next hrows =>
      cases h
      subst hrows
      refine ⟨layeredTop, layeredRows.map fun line => [line], layeredBottom, rfl, ?_⟩
      exact .cons ⟨_, rfl, by decide +kernel⟩ (.cons ⟨_, rfl, by decide +kernel⟩
        (.cons ⟨_, rfl, by decide +kernel⟩ (.cons ⟨_, rfl, by decide +kernel⟩ .nil)))
    · cases h

theorem table_shows_resolve_layeredText :
    load layeredFiles (.ofText "policy.yaml") = .ok layeredGeneration ∧
      (checkConfig layeredConsole layeredFiles "policy.yaml").outcome = .done 0 ∧
      RowsStandIn StandsBetweenBars layeredGeneration.rows
        (checkConfig layeredConsole layeredFiles "policy.yaml").output ∧
      (layeredGeneration.rowOf ⟨"api", "shop"⟩).tail = List.replicate 5 "unlimited" ∧
      (layeredGeneration.rowOf ⟨"web", "shop"⟩).tail = ["-", "1Gi", "0", "0", "-"] := by
  have hload : load layeredFiles (.ofText "policy.yaml") = .ok layeredGeneration := by
    decide +kernel
  obtain ⟨houtcome, houtput, _, _, hshows⟩ := table_shows_resolve hload
  have hdone : (checkConfig layeredConsole layeredFiles "policy.yaml").outcome = .done 0 := by
    rw [houtcome]
    simp [policyReport, layeredConsole]
  exact ⟨hload, hdone, houtput _ _ layeredConsole_showsRows hdone,
    (hshows ⟨"api", "shop"⟩).excluded.mpr (by decide), (hshows ⟨"web", "shop"⟩).limits (by decide)⟩

/-- The closing tag that a text has first among its brackets, and how many characters are before it. -/
def closingTag? (t : RawText) : Option (Nat × String) :=
  match t.shape.span (· != '[') with
  | (before, '[' :: '/' :: rest) =>
    some (before.length, "[/" ++ String.ofList (rest.takeWhile (· != ']')) ++ "]")
  | _ => none

/-- A screen for the markup of which each style has to be opened before it is closed. -/
def strictConsole : Console
  | .table _ _ rows =>
    match rows.flatten.findSome? closingTag? with
    | some (position, tag) =>
      .error (.foreign "MarkupError" ("closing tag '" ++ tag ++ "' at position " ++ toString position ++
        " doesn't match any open tag"))
    | none => .ok []
  | .panel markup | .line markup => .ok [markup]
  | _ => .ok [""]

def bracketFiles : Files :=
  [(["config.yaml"], Text.toUtf8 "customNamespaces:\n  'team[/a]':\n    maxCPULimit: 1\n")]

def bracketGeneration : Generation where
  defaults := ⟨⟨none, none, some .zero, some .zero, none⟩, false⟩
  names := []
  namespaces :=
    [("team[/a]", ⟨⟨some ⟨"1", ⟨false, 1, 0⟩⟩, none, some .zero, some .zero, none⟩, false⟩)]
  source? := some (.plain "config.yaml")

/-- A policy with a tag in the name of a namespace loads, but its table is not shown. -/
theorem table_not_shown :
    load bracketFiles (.ofText "config.yaml") = .ok bracketGeneration ∧
      (checkConfig strictConsole bracketFiles "config.yaml").outcome ≠ .done 0 ∧
      (checkConfig strictConsole bracketFiles "config.yaml").output =
        ["", "[bold]Policy: config.yaml[/bold]"] := by
  have hload : load bracketFiles (.ofText "config.yaml") = .ok bracketGeneration := by
    decide +kernel
  have hcheck := checkConfig_of_load hload strictConsole
  have hrefused : (strictConsole (.table "Resolved ceilings" Generation.headings
      bracketGeneration.rows)).toOption = none := by decide +kernel
  refine ⟨hload, fun hdone => ?_, by rw [hcheck]; decide +kernel⟩
  rw [hcheck, printing_outcome_iff] at hdone
  obtain ⟨lines, hlines⟩ := hdone (.table "Resolved ceilings" Generation.headings
    bracketGeneration.rows) (by simp [policyReport])
  rw [hlines] at hrefused
  cases hrefused

end Policy

end CeilingGate
