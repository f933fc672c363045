import TrustRegion.Decimal.Reader
import TrustRegion.Proofs.Scalar.Binary64
import TrustRegion.Proofs.Stepper.Dogleg

/-!
# Settings read from entries

The entries of a map come in any order, and the settings are examined only when all of them have been put.
Neither can be seen from outside, as long as no two entries have the same key.

* `Settings.putAll_eq` — putting entries comes to looking for one that is refused and, if there is none,
  overwriting one setting after the other.  What is refused does not depend on the settings so far.
* `Settings.Acceptable` — which entries can be used.  `Settings.givenBy` — the settings that they give, each
  looked up by its key.
* **`Settings.ofEntries_exact`** — exactly the acceptable entries give settings, whatever their order; they
  are the standard ones with the given keys overwritten, and a step solver refuses them only where the file
  of the log is not opened.
-/

namespace TrustRegion

/-! ## Names -/

/-- Are two texts the same, but for the case of the letters of the basic Latin alphabet? -/
def Text.AgreeIgnoringCase (text text' : String) : Prop :=
  text.toList.map Char.toLower = text'.toList.map Char.toLower

theorem SolverKind.ofName?_eq_some_iff {text : String} {kind : SolverKind} :
    ofName? text = some kind ↔ Text.AgreeIgnoringCase text kind.name := by
  have hlower : kind.name.toList.map Char.toLower = kind.name.toList := by
    cases kind <;> decide
  unfold Text.AgreeIgnoringCase
  rw [hlower]
  constructor
  · intro h
    unfold ofName? at h
    have hname : kind.name.toList = text.toList.map Char.toLower := by simpa using List.find?_some h
    exact hname.symm
  · intro h
    unfold ofName?
    rw [h]
    cases kind <;> decide

/-- The words for a level: two for silence, and one for each level. -/
def LogLevel.words : List String := ["off", "none", "trace", "debug", "info", "warn", "error"]

/-- A level is known exactly by its words, in any mixture of cases. -/
theorem LogLevel.exists_ofName_iff {text : String} :
    (∃ level, ofName text = .ok level) ↔ Text.lower text ∈ words := by
  have hwords : words = silence ++ all.map word := rfl
  rw [hwords, List.mem_append, List.mem_map]
  unfold ofName
  by_cases hsilence : Text.lower text ∈ silence
  · simp only [hsilence, if_true, true_or, iff_true]
    exact ⟨none, rfl⟩
  · simp only [hsilence, if_false, false_or]
    cases hfind : all.find? fun level => level.word = Text.lower text with
    | some level =>
        have hword : level.word = Text.lower text := by simpa using List.find?_some hfind
        exact iff_of_true ⟨some level, rfl⟩ ⟨level, List.mem_of_find?_eq_some hfind, hword⟩
    | none =>
        refine iff_of_false ?_ ?_
        · rintro ⟨level, h⟩
          cases h
        · rintro ⟨level, hmem, hword⟩
          exact List.find?_eq_none.1 hfind level hmem (decide_eq_true hword)

namespace Settings

variable {α : Type} {read : String → Option α} {entries entries' : List (String × String)}

/-! ## One entry after the other -/

/-- The keys of the settings. -/
def keys : List String := ["linear_solver", "singular_tolerance", "loglevel", "log_file"]

/-- Why an entry is refused. -/
def refusal? (read : String → Option α) (entry : String × String) : Option (SettingsProblem α) :=
  if entry.1 = "linear_solver" then
    if SolverKind.ofName? (Text.trim entry.2) = none then some (.unknownSolver entry.2) else none
  else if entry.1 = "singular_tolerance" then
    if (read (Text.trim entry.2)).isNone then some (.notANumber entry.2) else none
  else if entry.1 = "loglevel" ∨ entry.1 = "log_file" then none
  else some (.unknownSetting entry.1)

/-- The settings with one of them overwritten by an entry that can be read. -/
def overwrite (read : String → Option α) (s : Settings α) (entry : String × String) : Settings α :=
  { solver :=
      if entry.1 = "linear_solver" then (SolverKind.ofName? (Text.trim entry.2)).getD s.solver
      else s.solver
    tolerance :=
      if entry.1 = "singular_tolerance" then (read (Text.trim entry.2)).getD s.tolerance
      else s.tolerance
    logLevel := if entry.1 = "loglevel" then some (Text.trim entry.2) else s.logLevel
    logFile := if entry.1 = "log_file" then some (Text.trim entry.2) else s.logFile }

/-- Whether an entry is refused, and why, does not depend on the settings. -/
theorem put_eq (s : Settings α) (key text : String) :
    s.put read key text =
      match refusal? read (key, text) with
      | some problem => .error problem
      | none => .ok (overwrite read s (key, text)) := by
  unfold put refusal? overwrite
  dsimp only
  by_cases hsolver : key = "linear_solver"
  · subst hsolver
    cases SolverKind.ofName? (Text.trim text) <;> rfl
  by_cases htolerance : key = "singular_tolerance"
  · subst htolerance
    cases read (Text.trim text) <;> rfl
  by_cases hlevel : key = "loglevel"
  · subst hlevel
    rfl
  by_cases hfile : key = "log_file"
  · subst hfile
    rfl
  · simp only [hsolver, htolerance, hlevel, hfile, if_false, or_false]

/-- An entry is taken if its key is known, and its text names a solver or is a number where it has to. -/
theorem refusal?_eq_none_iff {entry : String × String} :
    refusal? read entry = none ↔
      entry.1 ∈ keys ∧
      (entry.1 = "linear_solver" → ∃ kind, SolverKind.ofName? (Text.trim entry.2) = some kind) ∧
      (entry.1 = "singular_tolerance" → ∃ t, read (Text.trim entry.2) = some t) := by
  obtain ⟨key, text⟩ := entry
  unfold refusal? keys
  dsimp only
  by_cases hsolver : key = "linear_solver"
  · subst hsolver
    cases SolverKind.ofName? (Text.trim text) <;> simp
  by_cases htolerance : key = "singular_tolerance"
  · subst htolerance
    cases read (Text.trim text) <;> simp
  · by_cases hlevel : key = "loglevel" <;> simp [hsolver, htolerance, hlevel]

/-- To put entries is to look for one that is refused and, if there is none, to overwrite one setting after
the other. -/
theorem putAll_eq (s : Settings α) (entries : List (String × String)) :
    putAll read s entries =
      match entries.findSome? (refusal? read) with
      | some problem => .error problem
      | none => .ok (entries.foldl (overwrite read) s) := by
  induction entries generalizing s with
  | nil => rfl
  | cons entry entries ih =>
      obtain ⟨key, text⟩ := entry
      rw [putAll, put_eq, List.findSome?_cons]
      cases refusal? read (key, text) with
      | some problem => rfl
      | none => exact ih _

/-! ## Looking up -/

/-- With one entry for each key, what is looked up is what is there. -/
theorem lookup_eq_some_iff (hkeys : (entries.map Prod.fst).Nodup) {key text : String} :
    entries.lookup key = some text ↔ (key, text) ∈ entries := by
  induction entries with
  | nil => simp
  | cons entry entries ih =>
      obtain ⟨key', text'⟩ := entry
      rw [List.map_cons, List.nodup_cons] at hkeys
      rw [List.lookup_cons, List.mem_cons, Prod.mk.injEq]
      by_cases h : key = key'
      · subst h
        have hrest : (key, text) ∉ entries := fun hmem => hkeys.1 (List.mem_map.2 ⟨_, hmem, rfl⟩)
        simp [hrest, eq_comm]
      · simp [h, ih hkeys.2, beq_eq_false_iff_ne.2 h]

theorem lookup_perm (hkeys : (entries.map Prod.fst).Nodup) (h : entries'.Perm entries) (key : String) :
    entries'.lookup key = entries.lookup key := by
  have hkeys' : (entries'.map Prod.fst).Nodup := (h.map Prod.fst).nodup_iff.2 hkeys
  refine Option.ext fun text => ?_
  rw [lookup_eq_some_iff hkeys', lookup_eq_some_iff hkeys, h.mem_iff]

/-- If only the entries of one key have to do with a setting, it is read from that key at the end. -/
theorem foldl_overwrite {β : Type} (field : Settings α → β) (key : String) (value : String → Option β)
    (hfield : ∀ s entry, field (overwrite read s entry) =
      if entry.1 = key then (value entry.2).getD (field s) else field s)
    (hkeys : (entries.map Prod.fst).Nodup) (s : Settings α) :
    field (entries.foldl (overwrite read) s) = ((entries.lookup key).bind value).getD (field s) := by
  induction entries generalizing s with
  | nil => rfl
  | cons entry entries ih =>
      obtain ⟨key', text⟩ := entry
      rw [List.map_cons, List.nodup_cons] at hkeys
      rw [List.foldl_cons, ih hkeys.2, hfield, List.lookup_cons]
      by_cases h : key' = key
      · subst h
        -- the key does not come again
        have hrest : entries.lookup key' = none := by
          refine Option.eq_none_iff_forall_ne_some.2 fun text' htext' => hkeys.1 ?_
          exact List.mem_map.2 ⟨_, (lookup_eq_some_iff hkeys.2).1 htext', rfl⟩
        simp [hrest]
      · simp [h, beq_eq_false_iff_ne.2 (Ne.symm h)]

/-- The text given for a key, without blanks around it. -/
def given? (entries : List (String × String)) (key : String) : Option String :=
  (entries.lookup key).map Text.trim

theorem given?_eq_some_iff (hkeys : (entries.map Prod.fst).Nodup) {key trimmed : String} :
    given? entries key = some trimmed ↔ ∃ text, (key, text) ∈ entries ∧ Text.trim text = trimmed := by
  rw [given?, Option.map_eq_some_iff]
  simp only [lookup_eq_some_iff hkeys]

theorem bind_given? {β : Type} (entries : List (String × String)) (key : String) (f : String → Option β) :
    (given? entries key).bind f = (entries.lookup key).bind fun text => f (Text.trim text) := by
  unfold given?
  cases entries.lookup key <;> rfl

variable [Scalar α]

/-- The standard settings, overwritten by what the entries give. -/
def givenBy (read : String → Option α) (entries : List (String × String)) : Settings α :=
  let s : Settings α := standard
  { solver := ((given? entries "linear_solver").bind SolverKind.ofName?).getD s.solver
    tolerance := ((given? entries "singular_tolerance").bind read).getD s.tolerance
    logLevel := (given? entries "loglevel").or s.logLevel
    logFile := (given? entries "log_file").or s.logFile }

theorem givenBy_perm (hkeys : (entries.map Prod.fst).Nodup) (h : entries'.Perm entries) :
    givenBy read entries' = givenBy read entries := by
  simp only [givenBy, given?, lookup_perm hkeys h]

/-- To overwrite one setting after the other is to look each of them up. -/
theorem foldl_eq_givenBy (read : String → Option α) (hkeys : (entries.map Prod.fst).Nodup) :
    entries.foldl (overwrite read) standard = givenBy read entries := by
  have hsolver : (entries.foldl (overwrite read) standard).solver = (givenBy read entries).solver := by
    rw [foldl_overwrite Settings.solver "linear_solver"
      (fun text => SolverKind.ofName? (Text.trim text)) (fun _ _ => rfl) hkeys, ← bind_given?]
    rfl
  have htolerance :
      (entries.foldl (overwrite read) standard).tolerance = (givenBy read entries).tolerance := by
    rw [foldl_overwrite Settings.tolerance "singular_tolerance" (fun text => read (Text.trim text))
      (fun _ _ => rfl) hkeys, ← bind_given?]
    rfl
  have hlevel : (entries.foldl (overwrite read) standard).logLevel = (givenBy read entries).logLevel := by
    rw [foldl_overwrite Settings.logLevel "loglevel" (fun text => some (some (Text.trim text)))
      (fun _ _ => rfl) hkeys, ← bind_given? _ _ fun trimmed => some (some trimmed)]
    unfold givenBy
    cases given? entries "loglevel" <;> rfl
  have hfile : (entries.foldl (overwrite read) standard).logFile = (givenBy read entries).logFile := by
    rw [foldl_overwrite Settings.logFile "log_file" (fun text => some (some (Text.trim text)))
      (fun _ _ => rfl) hkeys, ← bind_given? _ _ fun trimmed => some (some trimmed)]
    unfold givenBy
    cases given? entries "log_file" <;> rfl
  show Settings.mk _ _ _ _ = _
  rw [hsolver, htolerance, hlevel, hfile]

/-- What comes of some entries, with one for each key. -/
theorem ofEntries_eq (read : String → Option α) (hkeys : (entries.map Prod.fst).Nodup) :
    ofEntries read entries =
      match entries.findSome? (refusal? read) with
      | some problem => .error problem
      | none => (givenBy read entries).validate.map fun _ => givenBy read entries := by
  unfold ofEntries
  rw [putAll_eq, foldl_eq_givenBy read hkeys]
  cases entries.findSome? (refusal? read) with
  | some problem => rfl
  | none =>
      show (do (givenBy read entries).validate; return givenBy read entries) = _
      cases (givenBy read entries).validate <;> rfl

/-- If at most one entry is refused, the order does not matter for the refusal. -/
theorem findSome?_perm {β γ : Type} {f : β → Option γ} {xs ys : List β} (h : xs.Perm ys)
    (hone : ∀ x ∈ ys, ∀ y ∈ ys, (f x).isSome → (f y).isSome → x = y) :
    xs.findSome? f = ys.findSome? f := by
  cases hys : ys.findSome? f with
  | none =>
      rw [List.findSome?_eq_none_iff] at hys ⊢
      exact fun x hx => hys x (h.mem_iff.1 hx)
  | some problem =>
      obtain ⟨y, hy, hfy⟩ := List.exists_of_findSome?_eq_some hys
      cases hxs : xs.findSome? f with
      | none =>
          rw [List.findSome?_eq_none_iff.1 hxs y (h.mem_iff.2 hy)] at hfy
          cases hfy
      | some problem' =>
          obtain ⟨x, hx, hfx⟩ := List.exists_of_findSome?_eq_some hxs
          obtain rfl := hone x (h.mem_iff.1 hx) y hy (by rw [hfx]; rfl) (by rw [hfy]; rfl)
          rw [← hfx, ← hfy]

/-! ## Which entries are accepted -/

/-- Can the entries be used as settings? -/
structure Acceptable (read : String → Option α) (entries : List (String × String)) : Prop where
  keys : ∀ entry ∈ entries, entry.1 ∈ Settings.keys
  /-- The linear solver is given by its name, in any mixture of cases. -/
  solver : ∀ text, ("linear_solver", text) ∈ entries →
    ∃ kind : SolverKind, Text.AgreeIgnoringCase (Text.trim text) kind.name
  /-- The tolerance is a number from zero to one, where one is excluded. -/
  tolerance : ∀ text, ("singular_tolerance", text) ∈ entries →
    ∃ t, read (Text.trim text) = some t ∧ 0 ≤ t ∧ t < 1
  /-- The level is given by a word, in any mixture of cases. -/
  level : ∀ text, ("loglevel", text) ∈ entries → Text.lower (Text.trim text) ∈ LogLevel.words

/-- Settings are valid exactly if the tolerance is in range and the level, if there is one, is known. -/
theorem validate_eq_ok_iff {s : Settings α} :
    s.validate = .ok () ↔
      ToleranceInRange s.tolerance ∧ ∀ word, s.logLevel = some word → Text.lower word ∈ LogLevel.words := by
  unfold validate logFilter
  by_cases hrange : ToleranceInRange s.tolerance
  · rw [if_pos hrange, and_iff_right hrange]
    cases s.logLevel with
    | none => exact iff_of_true rfl fun word h => by cases h
    | some word =>
        simp only [Option.some.injEq, forall_eq']
        rw [← LogLevel.exists_ofName_iff]
        cases LogLevel.ofName word with
        | ok level => exact iff_of_true rfl ⟨level, rfl⟩
        | error lowered =>
            refine iff_of_false (fun h => by cases h) ?_
            rintro ⟨level, h⟩
            cases h
  · rw [if_neg hrange]
    exact iff_of_false (fun h => by cases h) fun h => hrange h.1

/-- The level is the text given for it. -/
theorem logLevel_givenBy (hkeys : (entries.map Prod.fst).Nodup) {word : String} :
    (givenBy read entries).logLevel = some word ↔
      ∃ text, ("loglevel", text) ∈ entries ∧ Text.trim text = word := by
  rw [← given?_eq_some_iff hkeys]
  unfold givenBy
  cases given? entries "loglevel" <;> rfl

/-- The tolerance is in range exactly if the number given for it, if there is one, is. -/
theorem toleranceInRange_givenBy (hstandard : ToleranceInRange (standard : Settings α).tolerance)
    (hkeys : (entries.map Prod.fst).Nodup) :
    ToleranceInRange (givenBy read entries).tolerance ↔
      ∀ text t, ("singular_tolerance", text) ∈ entries → read (Text.trim text) = some t →
        ToleranceInRange t := by
  unfold givenBy
  dsimp only
  cases hgiven : given? entries "singular_tolerance" with
  | none =>
      refine iff_of_true hstandard fun text t hmem _ => ?_
      rw [(given?_eq_some_iff hkeys).2 ⟨text, hmem, rfl⟩] at hgiven
      cases hgiven
  | some trimmed =>
      rw [Option.bind_some]
      constructor
      · intro hrange text t hmem ht
        rw [(given?_eq_some_iff hkeys).2 ⟨text, hmem, rfl⟩, Option.some.injEq] at hgiven
        rw [← hgiven, ht] at hrange
        exact hrange
      · intro hrange
        obtain ⟨text, hmem, rfl⟩ := (given?_eq_some_iff hkeys).1 hgiven
        cases ht : read (Text.trim text) with
        | none => exact hstandard
        | some t => exact hrange text t hmem ht

/-- Entries are acceptable exactly if none is refused and the settings that they give are valid. -/
theorem acceptable_iff (hstandard : ToleranceInRange (standard : Settings α).tolerance)
    (hkeys : (entries.map Prod.fst).Nodup) :
    Acceptable read entries ↔
      (∀ entry ∈ entries, refusal? read entry = none) ∧ (givenBy read entries).validate = .ok () := by
  rw [validate_eq_ok_iff, toleranceInRange_givenBy hstandard hkeys]
  constructor
  · intro h
    refine ⟨fun entry hentry => refusal?_eq_none_iff.2 ⟨h.keys entry hentry, ?_, ?_⟩, ?_, ?_⟩
    · intro hkey
      obtain ⟨kind, hkind⟩ := h.solver entry.2 (hkey ▸ hentry)
      exact ⟨kind, SolverKind.ofName?_eq_some_iff.2 hkind⟩
    · intro hkey
      obtain ⟨t, ht, -⟩ := h.tolerance entry.2 (hkey ▸ hentry)
      exact ⟨t, ht⟩
    · intro text t hmem ht
      obtain ⟨t', ht', hrange⟩ := h.tolerance text hmem
      rw [ht, Option.some.injEq] at ht'
      rw [ht']
      exact hrange
    · intro word hword
      obtain ⟨text, hmem, rfl⟩ := (logLevel_givenBy hkeys).1 hword
      exact h.level text hmem
  · rintro ⟨hnone, hrange, hwords⟩
    have hentry : ∀ entry ∈ entries, _ := fun entry hmem => refusal?_eq_none_iff.1 (hnone entry hmem)
    refine ⟨fun entry hmem => (hentry entry hmem).1, ?_, ?_, ?_⟩
    · intro text hmem
      obtain ⟨kind, hkind⟩ := (hentry _ hmem).2.1 rfl
      exact ⟨kind, SolverKind.ofName?_eq_some_iff.1 hkind⟩
    · intro text hmem
      obtain ⟨t, ht⟩ := (hentry _ hmem).2.2 rfl
      exact ⟨t, ht, hrange text t hmem ht⟩
    · intro text hmem
      exact hwords _ ((logLevel_givenBy hkeys).2 ⟨text, hmem, rfl⟩)

/-- What comes of acceptable entries, and of them only, is what they give. -/
theorem ofEntries_eq_ok_iff (hstandard : ToleranceInRange (standard : Settings α).tolerance)
    (hkeys : (entries.map Prod.fst).Nodup) {c : Settings α} :
    ofEntries read entries = .ok c ↔ Acceptable read entries ∧ c = givenBy read entries := by
  rw [acceptable_iff hstandard hkeys, ← List.findSome?_eq_none_iff, ofEntries_eq read hkeys]
  cases entries.findSome? (refusal? read) with
  | some problem => exact iff_of_false (fun h => by cases h) fun h => by cases h.1.1
  | none =>
      cases hvalid : (givenBy read entries).validate with
      | error problem => exact iff_of_false (fun h => by cases h) fun h => by cases h.1.2
      | ok u =>
          simp [Except.map, eq_comm]

/-- If at most one entry is refused, the order of the entries does not matter at all. -/
theorem ofEntries_perm (hkeys : (entries.map Prod.fst).Nodup) (h : entries'.Perm entries)
    (hone : ∀ x ∈ entries, ∀ y ∈ entries, (refusal? read x).isSome → (refusal? read y).isSome → x = y) :
    ofEntries read entries' = ofEntries read entries := by
  have hkeys' : (entries'.map Prod.fst).Nodup := (h.map Prod.fst).nodup_iff.2 hkeys
  rw [ofEntries_eq read hkeys', ofEntries_eq read hkeys, findSome?_perm h hone, givenBy_perm hkeys h]

theorem Acceptable.perm (h : Acceptable read entries) (hperm : entries'.Perm entries) :
    Acceptable read entries' where
  keys entry hmem := h.keys entry (hperm.mem_iff.1 hmem)
  solver text hmem := h.solver text (hperm.mem_iff.1 hmem)
  tolerance text hmem := h.tolerance text (hperm.mem_iff.1 hmem)
  level text hmem := h.level text (hperm.mem_iff.1 hmem)

/-- Is an entry refused, whatever the settings so far? -/
def Refused (read : String → Option α) (entry : String × String) : Prop :=
  ∀ s : Settings α, ∃ problem, s.put read entry.1 entry.2 = .error problem

theorem refused_iff {entry : String × String} :
    Refused read entry ↔ (refusal? read entry).isSome = true := by
  obtain ⟨key, text⟩ := entry
  unfold Refused
  simp only [put_eq]
  cases refusal? read (key, text) with
  | some problem => exact iff_of_true (fun _ => ⟨problem, rfl⟩) rfl
  | none =>
      refine iff_of_false (fun h => ?_) Bool.false_ne_true
      obtain ⟨problem, hproblem⟩ := h standard
      cases hproblem

omit [Scalar α] in
/-- The log is not opened only where its file is not. -/
theorem exists_of_openLog_error {s : Settings α} {opening : LogOpening} {level : Option LogLevel}
    {problem : SettingsProblem α} (hf : s.logFilter = .ok level) (h : s.openLog opening = .error problem) :
    ∃ file reason, s.logFile = some file ∧ opening file = .error reason ∧
      problem = .described reason := by
  unfold openLog at h
  rw [hf] at h
  cases level with
  | none => cases h
  | some level =>
      cases hfile : s.logFile with
      | none =>
          rw [hfile] at h
          cases h
      | some file =>
          rw [hfile] at h
          replace h : (opening file).mapError .described = .error problem := h
          cases hopening : opening file with
          | ok u =>
              rw [hopening] at h
              cases h
          | error reason =>
              rw [hopening] at h
              cases h
              exact ⟨file, reason, rfl, hopening, rfl⟩

/-- With valid settings there is nothing to refuse but the file of the log. -/
theorem exists_of_activate_error {s : Settings α} {opening : LogOpening} {problem : SettingsProblem α}
    (hv : s.validate = .ok ()) (h : s.activate opening = .error problem) :
    ∃ file reason, s.logFile = some file ∧ opening file = .error reason ∧
      problem = .described reason := by
  unfold activate at h
  rw [hv] at h
  unfold validate at hv
  split at hv
  · cases hf : s.logFilter with
    | error problem' =>
        rw [hf] at hv
        cases hv
    | ok level => exact exists_of_openLog_error hf h
  · cases hv

end Settings

/-- A step solver refuses valid settings only where the file of the log is not opened. -/
theorem DoglegStepper.init_of_valid {α : Type} [Scalar α] {s : DoglegStepper α}
    {opening : Settings.LogOpening} {n m : Nat} {problem : SettingsProblem α}
    (hv : s.settings.validate = .ok ())
    (h : (s.init n m opening).result = .error (.invalidSettings problem)) :
    ∃ file reason, s.settings.logFile = some file ∧ opening file = .error reason ∧
      problem = .described reason := by
  rcases s.init_cases n m opening with ⟨problem', hrefused, hinit⟩ | ⟨e, -, hd, hinit⟩ | ⟨d, -, -, hinit⟩
  · rw [hinit] at h
    cases h
    exact Settings.exists_of_activate_error hv hrefused
  · -- a size is all that is refused here
    unfold DoglegPath.ofSize at hd
    cases hq : Model.ofSize (α := α) n m with
    | ok q =>
        rw [hq] at hd
        cases hd
    | error e' =>
        obtain ⟨what, rfl⟩ := Model.exists_of_ofSize_error hq
        rw [hq] at hd
        cases hd
        rw [hinit] at h
        cases h
  · rw [hinit] at h
    cases h

namespace Settings

/-- **Exactly the acceptable entries give settings, in any order.**  Take entries of which no two have the same
key, and any way to read a number.  Whatever the order of the entries, they give settings exactly if they are
acceptable, and then these are the standard ones with the given keys overwritten.

These settings are valid, their tolerance is a finite number, and a step solver does not refuse them, whatever
size it is prepared for, unless the file of the log is not opened.  If at most one entry is refused when it is put, even the refusal is the same in any
order. -/
theorem ofEntries_exact (read : String → Option Float) {entries : List (String × String)}
    (hkeys : (entries.map Prod.fst).Nodup) :
    (∀ entries' : List (String × String), entries'.Perm entries → ∀ c : Settings Float,
      ofEntries read entries' = .ok c ↔ Acceptable read entries ∧ c = givenBy read entries) ∧
    (Acceptable read entries →
      let c := givenBy read entries
      c.validate = .ok () ∧ -Scalar.infinity < c.tolerance ∧ c.tolerance < Scalar.infinity ∧
        ∀ n m opening problem,
          ((DoglegStepper.fresh c).init n m opening).result = .error (.invalidSettings problem) →
          ∃ file reason, c.logFile = some file ∧ opening file = .error reason ∧
            problem = .described reason) ∧
    ((∀ x ∈ entries, ∀ y ∈ entries, Refused read x → Refused read y → x = y) →
      ∀ entries' : List (String × String), entries'.Perm entries →
        ofEntries read entries' = ofEntries read entries) := by
  have hstandard : ToleranceInRange (standard : Settings Float).tolerance := by decide +kernel
  refine ⟨fun entries' hperm c => ?_, fun h => ?_, fun hone entries' hperm => ?_⟩
  · have hkeys' : (entries'.map Prod.fst).Nodup := (hperm.map Prod.fst).nodup_iff.2 hkeys
    rw [ofEntries_eq_ok_iff hstandard hkeys', givenBy_perm hkeys hperm]
    exact and_congr_left fun _ => ⟨fun h => h.perm hperm.symm, fun h => h.perm hperm⟩
  · have hvalid := ((acceptable_iff hstandard hkeys).1 h).2
    obtain ⟨hnonneg, hlt⟩ := (validate_eq_ok_iff.1 hvalid).1
    have hbelow : -(Scalar.infinity : Float) < 0 := by decide +kernel
    have habove : (1 : Float) ≤ Scalar.infinity := by decide +kernel
    exact ⟨hvalid, Scalar.LawfulOrder.lt_of_lt_of_le hbelow hnonneg,
      Scalar.LawfulOrder.lt_of_lt_of_le hlt habove,
      fun n m opening problem => DoglegStepper.init_of_valid (s := .fresh _) hvalid⟩
  · refine ofEntries_perm hkeys hperm fun x hx y hy hrx hry => ?_
    exact hone x hx y hy (refused_iff.2 hrx) (refused_iff.2 hry)

/-- Three entries, with blanks around them and in a mixture of cases. -/
theorem ofEntries_exact_of_mixed_case :
    let entries := [("loglevel", " Info"), ("linear_solver", "LU "), ("singular_tolerance", "1e-9")]
    (entries.map Prod.fst).Nodup ∧ ∃ c : Settings Float,
      (∀ entries' : List (String × String), entries'.Perm entries →
        ofEntries Decimal.read? entries' = .ok c) ∧
      c.solver = .lu ∧ c.logLevel = some "Info" ∧ c.logFile = none ∧ c.validate = .ok () := by
  intro entries
  have hkeys : (entries.map Prod.fst).Nodup := by decide
  have hacceptable : Acceptable Decimal.read? entries := by
    refine ⟨by decide, fun text hmem => ?_, fun text hmem => ?_, fun text hmem => ?_⟩
    · obtain rfl : text = "LU " := by simpa [entries] using hmem
      exact ⟨.lu, SolverKind.ofName?_eq_some_iff.1 (by decide +kernel)⟩
    · obtain rfl : text = "1e-9" := by simpa [entries] using hmem
      have hread : ∃ t ∈ Decimal.read? (Text.trim "1e-9"), ToleranceInRange t := by decide +kernel
      exact hread
    · obtain rfl : text = " Info" := by simpa [entries] using hmem
      decide +kernel
  obtain ⟨hexact, hvalid, -⟩ := ofEntries_exact Decimal.read? hkeys
  refine ⟨hkeys, givenBy Decimal.read? entries,
    fun entries' hperm => (hexact entries' hperm _).2 ⟨hacceptable, rfl⟩, ?_, ?_, ?_, (hvalid hacceptable).1⟩
  · decide +kernel
  · decide +kernel
  · decide +kernel

end Settings

end TrustRegion
