/-
TransitionRules/Proofs/RuleFile/EnabledEntries.lean

Which entries of a rule file are declared.  Whether an entry takes part is asked twice: `isEnabled` looks
at the data before it is read, and the entry that is read has a flag of its own.  On an object the two
agree, because reading keeps what stands under `enabled` (`isEnabled_of_ofJson`).  They do not agree on
an entry that is given as a list of its values: a list has no field `enabled` to look at, so that such
an entry is declared whatever its flag is.

Main result: `declarations_enabled`.
-/
import TransitionRules.Proofs.Steps
import TransitionRules.RuleFile.Reader

namespace TransitionRules.RuleFile

variable {entry entry' : Entry} {name : String} {data value : Json} {fault : ShapeFault}

namespace Entry

/-! ### The flag of an entry that is read -/

theorem eq_bool_of_asBool {b : Bool} (h : value.asBool = .ok b) : value = .bool b := by
  unfold Json.asBool at h
  split at h
  · cases h
    rfl
  · cases h

theorem enabled_of_readField (h : entry.readField name value = .ok entry') :
    if name = "enabled" then value = .bool entry'.enabled else entry'.enabled = entry.enabled := by
  unfold readField at h
  split at h
  case h_3 =>
    obtain ⟨flag, hflag, h⟩ := bind_eq_ok.mp h
    cases h
    exact eq_bool_of_asBool hflag
  case h_7 => cases h
  all_goals
    -- any other field leaves the flag alone
    obtain ⟨content, -, h⟩ := bind_eq_ok.mp h
    cases h
    rfl

/-- Reading fields leaves the flag that stands among them, or the one that was there. -/
theorem enabled_of_foldlM {low : Option String} {fields : FieldsAfter Json low}
    (h : fields.toList.foldlM (fun entry field => entry.readField field.1 field.2) entry =
      .ok entry') :
    entry'.enabled = ((fields.get? "enabled").bind Json.bool?).getD entry.enabled := by
  induction fields generalizing entry with
  | nil =>
    cases h
    rfl
  | cons name after value rest ih =>
    rw [FieldsAfter.toList, List.foldlM_cons] at h
    obtain ⟨middle, hmiddle, h⟩ := bind_eq_ok.mp h
    have hflag := enabled_of_readField hmiddle
    rw [ih h, FieldsAfter.get?_cons]
    by_cases hname : name = "enabled"
    · -- there is no second field of this name
      subst hname
      have hrest : rest.get? "enabled" = none :=
        FieldsAfter.get?_eq_none_of_not_after rest (String.lt_irrefl _)
      have hvalue : value = .bool middle.enabled := hflag
      rw [hrest, if_pos rfl, hvalue]
      rfl
    · rw [if_neg hname] at hflag
      rw [if_neg hname, hflag]

end Entry

/-- On data that is no list, both ways of asking agree. -/
theorem isEnabled_of_ofJson (h : Entry.ofJson data = .ok entry)
    (hlist : ∀ items, data ≠ .array items) : isEnabled data = entry.enabled := by
  cases data with
  | object fields => exact (Entry.enabled_of_foldlM h).symm
  | array items => exact absurd rfl (hlist items)
  | _ => cases h

/-! ### What is declared -/

theorem declarations_singleton (data : Json) :
    declarations [data] = if isEnabled data then [declarationOf data] else [] := by
  rw [declarations, List.filter_cons]
  cases isEnabled data <;> rfl

theorem declarationOf_of_ok (h : Entry.ofJson data = .ok entry) :
    declarationOf data = entry.declaration := by
  rw [declarationOf, h]

theorem declarationOf_of_error (h : Entry.ofJson data = .error fault) :
    declarationOf data =
      { name := (data.field? "name").bind Json.string?
        performance := some (.malformed ("malformed rule: " ++ fault.message)) } := by
  rw [declarationOf, h]

/-- Data is kept from taking part by a field that says so, and by nothing else. -/
theorem isEnabled_eq_false_iff (data : Json) :
    isEnabled data = false ↔ data.field? "enabled" = some (.bool false) := by
  unfold isEnabled
  rcases data.field? "enabled" with - | value
  · simp
  · cases value <;> simp [Json.bool?]

/-- **Which entries are declared.**  Each entry is declared by itself, in the order of the file.  An
entry that can be read is declared if it is enabled, or if it is given as a list; any other has one
declaration that says what is wrong with it, unless it is an object that says `enabled: false`. -/
theorem declarations_enabled (entries : List Json) :
    declarations entries = entries.flatMap (fun data => declarations [data]) ∧
      ∀ data,
        (∀ entry, Entry.ofJson data = .ok entry → (∀ items, data ≠ .array items) →
          declarations [data] = if entry.enabled then [entry.declaration] else []) ∧
        (∀ entry items, Entry.ofJson data = .ok entry → data = .array items →
          declarations [data] = [entry.declaration]) ∧
        (∀ fault, Entry.ofJson data = .error fault →
          data.field? "enabled" = some (.bool false) → declarations [data] = []) ∧
        ∀ fault, Entry.ofJson data = .error fault →
          data.field? "enabled" ≠ some (.bool false) →
            declarations [data] = [{
              name := (data.field? "name").bind Json.string?
              performance := some (.malformed ("malformed rule: " ++ fault.message)) }] := by
  refine ⟨?_, fun data => ⟨?_, ?_, ?_, ?_⟩⟩
  · induction entries with
    | nil => rfl
    | cons data rest ih =>
      rw [List.flatMap_cons, ← ih, declarations_singleton, declarations, declarations,
        List.filter_cons]
      cases isEnabled data <;> rfl
  · intro entry hentry hlist
    rw [declarations_singleton, isEnabled_of_ofJson hentry hlist, declarationOf_of_ok hentry]
  · rintro entry items hentry rfl
    rw [declarations_singleton, declarationOf_of_ok hentry]
    rfl
  · intro fault _ hdisabled
    rw [declarations_singleton, (isEnabled_eq_false_iff data).mpr hdisabled]
    rfl
  · intro fault hfault hdisabled
    have henabled : isEnabled data = true := by
      rw [← Bool.not_eq_false, isEnabled_eq_false_iff]
      exact hdisabled
    rw [declarations_singleton, henabled, declarationOf_of_error hfault]
    rfl

/-- A disabled entry with the values of its fields in their order. -/
def pausedList : Json :=
  .array [.string "paused", .null, .bool false, .bool true, .null, .array []]

/-- It is read as disabled and declared all the same. -/
theorem declarations_enabled_pausedList :
    ∃ entry, Entry.ofJson pausedList = .ok entry ∧ entry.enabled = false ∧
      declarations [pausedList] = [entry.declaration] := by
  have hentry : Entry.ofJson pausedList = .ok _ := rfl
  refine ⟨_, hentry, rfl, ?_⟩
  exact ((declarations_enabled []).2 pausedList).2.1 _ _ hentry rfl

end TransitionRules.RuleFile
