/-
TaskTimer.Proofs.Serial.RoundTrip — serialised values read back.

  §1 Identifiers   — the hyphens come out again where they were put in, and the digits give the
                     bits. Of the four forms that are read, the written one is told by its first
                     character and its length.
  §2 JSON values   — for each type, the reader undoes the writer.
  §3 Texts         — with `Json.parse?_render` this goes on to the texts (`Faithful`), and a text
                     that is read back belongs to one value only.
-/
import TaskTimer.Serial.Basic
import TaskTimer.Proofs.Json.Reader

namespace TaskTimer

/-! ## §1 Identifiers -/

namespace TaskId

theorem length_hyphenate (ns : List Nat) (cs : List Char) :
    (hyphenate ns cs).length = cs.length + (ns.length - 1) := by
  fun_induction hyphenate ns cs with
  | case1 cs => rfl
  | case2 n cs => rfl
  | case3 n ns cs hns ih =>
    obtain ⟨m, ns, rfl⟩ := List.exists_cons_of_ne_nil hns
    simp only [List.length_append, List.length_take, List.length_cons, ih, List.length_drop]
    omega

/-- Hyphens are taken out where they were put in, if there are digits for every group. -/
theorem unhyphenate?_hyphenate {ns : List Nat} {cs : List Char} (h : ns.sum ≤ cs.length) :
    unhyphenate? ns (hyphenate ns cs) = some cs := by
  fun_induction hyphenate ns cs with
  | case1 cs => rfl
  | case2 n cs => rfl
  | case3 n ns cs hns ih =>
    rw [List.sum_cons] at h
    have hgroup : (cs.take n).length = n := by rw [List.length_take]; omega
    have hrest : ns.sum ≤ (cs.drop n).length := by rw [List.length_drop]; omega
    rw [unhyphenate?, List.drop_left' hgroup, List.take_left' hgroup]
    · simp only [ih hrest, Option.map_some, List.take_append_drop]
    · exact hns

/-- No form but the plain one begins with a digit. -/
theorem ofValue_ne {v : Nat} (h : v < 16) :
    Digits.ofValue v ≠ '\x7b' ∧ (Digits.ofValue v).toLower ≠ 'u' := by
  have : ∀ m : Fin 16, Digits.ofValue m.val ≠ '\x7b' ∧ (Digits.ofValue m.val).toLower ≠ 'u' := by
    decide
  exact this ⟨v, h⟩

theorem ofDigits?_hex (id : TaskId) : ofDigits? (Digits.hex 32 id.bits.toNat) = some id := by
  have hbits : id.bits.toNat < 16 ^ 32 := id.bits.isLt
  rw [ofDigits?, if_pos (Digits.length_hex _ _), Digits.ofHex?_hex hbits, Option.map_some,
    BitVec.ofNat_toNat, BitVec.setWidth_eq]

/-- The text of an identifier is read as that identifier. -/
theorem ofText?_text (id : TaskId) : ofText? id.text = some id := by
  have hlength : (Digits.hex 32 id.bits.toNat).length = 32 := Digits.length_hex _ _
  have hgroups : ofGroups? (hyphenate groups (Digits.hex 32 id.bits.toNat)) = some id := by
    rw [ofGroups?, unhyphenate?_hyphenate (by rw [hlength]; decide), Option.bind_some,
      ofDigits?_hex]
  obtain ⟨v, ds, hv, hds⟩ := Digits.hex_eq_cons 31 id.bits.toNat
  obtain ⟨hbrace, hurn⟩ := ofValue_ne hv
  have hlong : (hyphenate groups (Digits.hex 32 id.bits.toNat)).length = 36 := by
    rw [length_hyphenate, hlength]
    rfl
  have hfirst : hyphenate groups (Digits.hex 32 id.bits.toNat) =
      Digits.ofValue v :: (ds.take 7 ++ '-' :: hyphenate [4, 4, 4, 12] (ds.drop 7)) := by
    rw [hds]
    rfl
  rw [ofText?, text, String.toList_ofList]
  split
  next cs hcs =>
    rw [hfirst] at hcs
    exact absurd (List.cons.inj hcs).1 hbrace
  next hplain =>
    rw [if_neg, if_neg (by omega), hgroups]
    intro hhead
    rw [hfirst] at hhead
    exact hurn (List.cons.inj hhead).1

end TaskId

/-! ## §2 JSON values -/

/-- What is written for a value has a text, and is read as that value. -/
structure ReadsBack {α : Type} (write : α → Json) (read? : Json → Option α) : Prop where
  hasText : ∀ v, (write v).HasText
  read?_write : ∀ v, read? (write v) = some v

/-- An object with a single field has a text if its value has one. -/
theorem Json.HasText.single {x : Json} (h : x.HasText) (name : String) :
    (Json.single name x).HasText := by
  refine .obj ?_ ?_
  · simp
  · simpa using h

/-- An object with two fields has a text if both values have one. -/
theorem Json.HasText.pair {x y : Json} (hx : x.HasText) (hy : y.HasText) (name next : String) :
    (Json.obj [(some name, x), (some next, y)]).HasText := by
  refine .obj ?_ ?_
  · simp
  · simpa using ⟨hx, hy⟩

theorem TaskId.readsBack : ReadsBack TaskId.toJson TaskId.ofJson? where
  hasText id := .text id.text
  read?_write id := by
    rw [TaskId.toJson, TaskId.ofJson?, Json.text, Json.text?, Option.bind_some, TaskId.ofText?_text]

theorem TaskState.readsBack : ReadsBack TaskState.toJson TaskState.ofJson? where
  hasText s := .text s.name
  read?_write s := by cases s <;> rfl

theorem RepeatMode.readsBack : ReadsBack RepeatMode.toJson RepeatMode.ofJson? where
  hasText m := .text m.name
  read?_write m := by cases m <;> rfl

namespace Duration

theorem seconds_le (d : Duration) : d.seconds ≤ 18446744073709551615 := by
  have := d.le_hi
  simp only [seconds, nanosPerSecond]
  omega

theorem subsecond_le (d : Duration) : d.subsecond ≤ 4294967295 := by
  simp only [subsecond, nanosPerSecond]
  omega

theorem readsBack : ReadsBack toJson ofJson? where
  hasText d := .pair (.nat d.seconds) (.nat d.subsecond) "secs" "nanos"
  read?_write d := by
    have hsecs : (Json.nat d.seconds).natUpTo? 18446744073709551615 = some d.seconds :=
      if_pos d.seconds_le
    have hnanos : (Json.nat d.subsecond).natUpTo? 4294967295 = some d.subsecond :=
      if_pos d.subsecond_le
    rw [toJson, ofJson?, ofJsonParts?, hsecs, hnanos]
    exact d.ofParts?_seconds_subsecond

end Duration

namespace Period

/-- An object whose only field is named like a mode is the period in this mode. -/
theorem ofJson?_single (mode : RepeatMode) (d : Duration) :
    ofJson? (.single mode.name d.toJson) = some (mode.period d) := by
  have hread := Duration.readsBack.read?_write d
  rw [Duration.toJson] at hread ⊢
  cases mode <;>
    simp [ofJson?, Json.single, Json.bare?, Json.variant?, RepeatMode.name, RepeatMode.ofName?,
      hread]

theorem readsBack : ReadsBack toJson ofJson? where
  hasText p := by
    cases p with
    | once => exact .text "once"
    | fixedRate d => exact .single (Duration.readsBack.hasText d) _
    | fixedDelay d => exact .single (Duration.readsBack.hasText d) _
  read?_write p := by
    cases p with
    | once => rfl
    | fixedRate d => exact ofJson?_single .fixedRate d
    | fixedDelay d => exact ofJson?_single .fixedDelay d

end Period

namespace Shutdown

/-- An object whose only field is named for a failure is the failure that the field holds. -/
theorem ofJson?_taskFailed (task error : Json) :
    ofJson? (.single "task_failed" (.obj [(some "task_id", task), (some "error", error)])) =
      ofJsonParts? task error := by
  simp [ofJson?, ofJsonFailure?, Json.single, Json.bare?, Json.variant?, Json.field?]

theorem ofJson?_panicked (message : String) :
    ofJson? (.single "panicked" (.text message)) = some (.panicked message) := by
  simp [ofJson?, Json.single, Json.bare?, Json.variant?, Json.text, Json.text?]

theorem readsBack : ReadsBack toJson ofJson? where
  hasText reason := by
    cases reason with
    | cancelled => exact .text "cancelled"
    | drained => exact .text "drained"
    | taskFailed task error => exact .single (.pair (.text task.text) (.text error) _ _) _
    | panicked message => exact .single (.text message) _
  read?_write reason := by
    cases reason with
    | cancelled => rfl
    | drained => rfl
    | taskFailed task error =>
      have htask : TaskId.ofJson? (.text task.text) = some task :=
        TaskId.readsBack.read?_write task
      rw [toJson, toJsonWith, ofJson?_taskFailed, ofJsonParts?, htask]
      rfl
    | panicked message => exact ofJson?_panicked message

end Shutdown

/-! ## §3 Texts -/

/-- The text that is written for a value is read as that value, and is the text of no other. -/
structure Faithful {α : Type} (write : α → Json) (read? : Json → Option α) : Prop where
  read_back : ∀ v, (Json.parse? (write v).render).bind read? = some v
  distinct : ∀ v w, v ≠ w → (write v).render ≠ (write w).render

theorem ReadsBack.faithful {α : Type} {write : α → Json} {read? : Json → Option α}
    (h : ReadsBack write read?) : Faithful write read? := by
  have hread : ∀ v, (Json.parse? (write v).render).bind read? = some v := by
    intro v
    rw [Json.parse?_render (h.hasText v), Option.bind_some, h.read?_write]
  refine ⟨hread, fun v w hne htext => hne (Option.some.inj ?_)⟩
  calc some v = (Json.parse? (write v).render).bind read? := (hread v).symm
    _ = (Json.parse? (write w).render).bind read? := by rw [htext]
    _ = some w := hread w

/-- **Serialised values read back.** For periods, reasons of a shutdown, task identifiers, states
and modes: the JSON text of a value is read as exactly that value, and no two values have the same
text. Durations go up to the largest one, and messages may hold any text. -/
theorem serialised_values_read_back :
    Faithful Period.toJson Period.ofJson? ∧
      Faithful Shutdown.toJson Shutdown.ofJson? ∧
      Faithful TaskId.toJson TaskId.ofJson? ∧
      Faithful TaskState.toJson TaskState.ofJson? ∧
      Faithful RepeatMode.toJson RepeatMode.ofJson? :=
  ⟨Period.readsBack.faithful, Shutdown.readsBack.faithful, TaskId.readsBack.faithful,
    TaskState.readsBack.faithful, RepeatMode.readsBack.faithful⟩

/-- Quotation marks and control characters are escaped, and other letters stand for themselves. -/
example : (Shutdown.panicked "no \"é\"\n" : Shutdown TaskId).toJson.render =
    "\x7b\"panicked\":\"no \\\"é\\\"\\n\"\x7d" := by
  decide +kernel

end TaskTimer
