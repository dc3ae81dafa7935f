import Pipework.Document
import Pipework.Proofs.Dict.Keys
import Pipework.Proofs.Document.Uuid
import Pipework.Proofs.Time.Text
import Pipework.Proofs.Traversal

/-!
# Values read back

What is written for a value is read back as that value, or as another one where reading is
forgetful: `Document.ReadAs` says as which. A record is read back field by field. Each reader of
fields takes out the members under its own names (`Document.Fields.Reads`), so readers for different
names can follow each other in any order of the members.
-/

namespace Pipework.Document

variable {α β γ : Type}

/-- Whether what is written for one value is read as the other, and not taken for an absent one. -/
structure ReadAs [ToJson α] (read : Reader Json β) (x : α) (y : β) : Prop where
  reads : read (toJson x) = some y
  present : (toJson x).isNull = false

theorem ReadAs.option? [ToJson α] {read : Reader Json β} {x : α} {y : β} (h : ReadAs read x y) :
    option? read (toJson x) = some (some y) := by
  have habsence : absence? (toJson x) = some false := congrArg some h.present
  rw [Document.option?, habsence]
  exact congrArg (Option.map some) h.reads

/-! ## Fields -/

namespace Fields

/-- What stands under a name is taken out. -/
theorem run_take? (name : String) (d : Dict Json) : (take? name).run (.named d.entries)
    = some (d.get? name, .named (d.without [name]).entries) := by
  have hrest : (d.without [name]).entries = d.entries.filter (·.1 != name) :=
    List.filter_congr fun e _ => by rw [Bool.eq_iff_iff]; simp
  have hmem {e : String × Json} :
      e ∈ d.entries.filter (·.1 == name) ↔ e.1 = name ∧ d.get? name = some e.2 := by
    rw [List.mem_filter, beq_iff_eq, and_comm, and_congr_right]
    rintro rfl
    exact Dict.mem_entries_iff
  rw [hrest]
  simp only [StateT.run, take?]
  match hlist : d.entries.filter (·.1 == name) with
  | [] =>
    have hnone : d.get? name = none := Option.eq_none_iff_forall_ne_some.2 fun v hv =>
      List.not_mem_nil (hlist ▸ hmem.2 ⟨rfl, hv⟩ : (name, v) ∈ [])
    have hall : d.entries.filter (·.1 != name) = d.entries :=
      List.filter_eq_self.2 fun e he => bne_iff_ne.2 fun hname =>
        List.filter_eq_nil_iff.1 hlist e he (beq_iff_eq.2 hname)
    rw [hlist, hnone, hall]
  | [e] =>
    have he := hmem.1 (hlist ▸ List.mem_cons_self : e ∈ d.entries.filter (·.1 == name))
    rw [hlist, he.2]
  | a :: b :: rest =>
    -- No key comes twice.
    have ha := (hmem.1 (hlist ▸ List.mem_cons_self)).1
    have hb := (hmem.1 (hlist ▸ List.mem_cons_of_mem _ List.mem_cons_self)).1
    have hascending : Ascending (a :: b :: rest) := hlist ▸ d.ascending.filter _
    have hlt := (List.pairwise_cons.1 hascending).1 b List.mem_cons_self
    rw [ha, hb] at hlt
    exact absurd hlt (String.lt_irrefl name)

/-- Whether a reader gets a value from the members under some names, whatever other members there
are, and takes out all that stands under these names. -/
structure Reads (reader : FieldReader Json α) (names : List String)
    (members : List (String × Json)) (x : α) : Prop where
  keys : ∀ e ∈ members, e.1 ∈ names
  run : names.Nodup → ∀ d : Dict Json, (∀ k ∈ names, d.get? k = (Dict.ofList members).get? k) →
    reader.run (.named d.entries) = some (x, .named (d.without names).entries)

namespace Reads

section

variable {names names' : List String} {members members' : List (String × Json)} {x : α} {y : β}
  {reader : FieldReader Json α}

theorem of_eq (h : Reads reader names members x) (hmembers : members' = members) :
    Reads reader names members' x := hmembers ▸ h

theorem get?_eq_none (h : Reads reader names members x) {k : String} (hk : k ∉ names) :
    (Dict.ofList members).get? k = none := by
  refine Option.eq_none_iff_forall_ne_some.2 fun v hv => ?_
  rcases Dict.mem_of_get?_insertMany hv with hv | hv
  · cases hv
  · exact hk (h.keys _ hv)

theorem pure : Reads (Pure.pure x) [] [] x where
  keys := nofun
  run _ d _ := by
    rw [Dict.without_nil]
    rfl

/-- One reader after another, for other names. -/
theorem bind {next : α → FieldReader Json β} (h : Reads reader names members x)
    (hnext : Reads (next x) names' members' y) :
    Reads (reader >>= next) (names ++ names') (members ++ members') y where
  keys e he := by
    rcases List.mem_append.1 he with he | he
    · exact List.mem_append_left _ (h.keys e he)
    · exact List.mem_append_right _ (hnext.keys e he)
  run hnodup d hd := by
    obtain ⟨hnames, hnames', hdisjoint⟩ := List.nodup_append'.1 hnodup
    have hfirst : ∀ k ∈ names, d.get? k = (Dict.ofList members).get? k := by
      intro k hk
      rw [hd k (List.mem_append_left _ hk), Dict.get?_ofList_append,
        hnext.get?_eq_none (hdisjoint hk), Option.none_or]
    have hlater : ∀ k ∈ names', (d.without names).get? k = (Dict.ofList members').get? k := by
      intro k hk
      have hother : k ∉ names := fun h => hdisjoint h hk
      rw [Dict.get?_without, if_neg hother, hd k (List.mem_append_right _ hk),
        Dict.get?_ofList_append, h.get?_eq_none hother, Option.or_none]
    rw [StateT.run_bind, h.run hnames d hfirst, Dict.without_append]
    exact hnext.run hnames' _ hlater

/-- A reader that has the members to itself. -/
theorem run_ofList (h : Reads reader names members x) (hnames : names.Nodup) :
    reader.run (.named (Dict.ofList members).entries)
      = some (x, .named ((Dict.ofList members).without names).entries) :=
  h.run hnames _ fun _ _ => rfl

/-- It leaves none of them. -/
theorem without_ofList (h : Reads reader names members x) :
    (Dict.ofList members).without names = .empty := by
  refine Dict.ext_get? fun k => ?_
  rw [Dict.get?_without, Dict.get?_empty]
  split
  · rfl
  · rename_i hk
    exact h.get?_eq_none hk

end

variable [ToJson α] {name : String} {read : Reader Json β} {x : α} {y : β}

/-- A reader for one name. -/
theorem of_name {reader : FieldReader Json γ} {members : List (String × Json)} {z : γ}
    (hkeys : ∀ e ∈ members, e.1 = name)
    (h : ∀ d : Dict Json, d.get? name = (Dict.ofList members).get? name →
      reader.run (.named d.entries) = some (z, .named (d.without [name]).entries)) :
    Reads reader [name] members z where
  keys e he := List.mem_singleton.2 (hkeys e he)
  run _ d hd := h d (hd name List.mem_cons_self)

theorem get?_member : (Dict.ofList (Json.member name x)).get? name = some (toJson x) := by
  simp [Json.member, Dict.ofList, Dict.insertMany, Dict.get?_insert]

theorem required_of_eq (h : read (toJson x) = some y) :
    Reads (required name read) [name] (Json.member name x) y := by
  refine of_name (by simp [Json.member]) fun d hd => ?_
  rw [get?_member] at hd
  rw [Fields.required, StateT.run_bind, run_take?, hd]
  simp [h]

theorem required (h : ReadAs read x y) :
    Reads (required name read) [name] (Json.member name x) y := required_of_eq h.reads

theorem defaulted_of_eq {default : β} (h : read (toJson x) = some y) :
    Reads (defaulted name read default) [name] (Json.member name x) y := by
  refine of_name (by simp [Json.member]) fun d hd => ?_
  rw [get?_member] at hd
  rw [Fields.defaulted, StateT.run_bind, run_take?, hd]
  simp [h]

theorem defaulted {default : β} (h : ReadAs read x y) :
    Reads (defaulted name read default) [name] (Json.member name x) y := defaulted_of_eq h.reads

/-- A value of any kind, null included. -/
theorem required_json {v : Json} :
    Reads (Fields.required name json?) [name] (Json.member name v) v := required_of_eq rfl

/-- A field that is left out. -/
theorem defaulted_absent {default : β} :
    Reads (Fields.defaulted name read default) [name] [] default := by
  refine of_name (by simp) fun d hd => ?_
  rw [Fields.defaulted, StateT.run_bind, run_take?, hd]
  rfl

/-- A field that is left out without a value. -/
theorem optional_of_eq {x? : Option α} {y? : Option β} (hnone : x? = none → y? = none)
    (hsome : ∀ x ∈ x?, option? read (toJson x) = some y?) :
    Reads (optional name read) [name] (Json.member? name x?) y? := by
  cases x? with
  | none =>
    rw [hnone rfl]
    exact defaulted_absent
  | some x => exact defaulted_of_eq (hsome x rfl)

theorem optional {read : Reader Json α} {x? : Option α} (h : ∀ x ∈ x?, ReadAs read x x) :
    Reads (optional name read) [name] (Json.member? name x?) x? :=
  optional_of_eq id fun x hx => hx ▸ (h x hx).option?

theorem optional_absent : Reads (Fields.optional name read) [name] [] none := defaulted_absent

/-- A field that is written as null. -/
theorem optional_null :
    Reads (Fields.optional name read) [name] [(name, .null)] none :=
  defaulted_of_eq (show option? read (toJson Json.null) = some none from rfl)

/-- An optional value of any kind. Null is written like a value, and read as none. -/
theorem optional_json {v? : Option Json} :
    Reads (Fields.optional name json?) [name] (Json.member? name v?) (v?.filter (!·.isNull)) := by
  refine optional_of_eq (fun hv => by rw [hv]; rfl) fun v hv => ?_
  rw [Option.mem_def.1 hv]
  cases v <;> rfl

/-- A table that is left out without entries. -/
theorem unlessEmpty {read : Reader Json (Dict α)} {d : Dict α} (h : ReadAs read d d) :
    Reads (Fields.defaulted name read .empty) [name] (Json.memberUnlessEmpty name d) d := by
  rw [Json.memberUnlessEmpty]
  split
  · rename_i hempty
    have hd : d = .empty := Dict.ext_entries (List.isEmpty_iff.1 hempty)
    subst hd
    exact defaulted_absent
  · exact defaulted h

/-- A field that is written as null without a value. -/
theorem nullable {read : Reader Json α} {x? : Option α} (h : ∀ x ∈ x?, ReadAs read x x) :
    Reads (nullable name read) [name] (Json.member name x?) x? := by
  have hread : option? read (toJson x?) = some x? := by
    cases x? with
    | none => rfl
    | some x => exact (h x rfl).option?
  refine of_name (by simp [Json.member]) fun d hd => ?_
  rw [get?_member] at hd
  have hget : StateT.run get (Fields.named d.entries)
      = some (Fields.named d.entries, Fields.named d.entries) := rfl
  rw [Fields.nullable, StateT.run_bind, hget]
  simp [run_take?, hd, hread]

end Reads

end Fields

/-! ## Values and records -/

namespace ReadAs

theorem text (s : String) : ReadAs text? s s := ⟨rfl, rfl⟩

theorem bool (b : Bool) : ReadAs bool? b b := ⟨rfl, rfl⟩

theorem natural (n : Nat) : ReadAs natural? n n := by
  refine ⟨?_, rfl⟩
  change Json.natural? (.num (.int n)) = some n
  simp [Json.natural?]

theorem uuid (id : Uuid) : ReadAs uuid? id id := by
  have htext : text? (toJson id) = some id.toText := rfl
  exact ⟨by rw [uuid?, htext, Option.bind_some, Uuid.ofText?_toText], rfl⟩

theorem instant {t : Time.Instant} (h : t.Valid) : ReadAs instant? t t := by
  have htext : text? (toJson t) = some t.toText := rfl
  exact ⟨by rw [instant?, htext, Option.bind_some, Time.Instant.ofText?_toText h], rfl⟩

variable [ToJson α] {x : α} {y : β}

theorem list {read : Reader Json β} {f : α → β} {xs : List α}
    (h : ∀ x ∈ xs, ReadAs read x (f x)) : ReadAs (list? read) xs (xs.map f) := by
  refine ⟨?_, rfl⟩
  change (xs.map toJson).mapM read = some (xs.map f)
  rw [List.mapM_map]
  exact mapM_eq_some fun x hx => (h x hx).reads

theorem list_self {read : Reader Json α} {xs : List α} (h : ∀ x ∈ xs, ReadAs read x x) :
    ReadAs (list? read) xs xs := by
  have hlist : ReadAs (list? read) xs (xs.map id) := list h
  rwa [List.map_id] at hlist

/-- A table is read entry by entry. -/
theorem dict?_ofDict {γ : Type} {read : Reader Json β} {write : γ → Json} {f : γ → β} {d : Dict γ}
    (h : ∀ x ∈ d.values, read (write x) = some (f x)) :
    dict? read (Json.ofDict (d.map write)) = some (d.map f) := by
  rw [Dict.values, List.forall_mem_map] at h
  have htable : table? (Json.ofDict (d.map write))
      = some (d.entries.map fun e => (e.1, write e.2)) := rfl
  have hentries : (d.entries.map fun e => (e.1, write e.2)).mapM
      (fun e => (read e.2).map fun x => (e.1, x)) = some (d.map f).entries := by
    rw [List.mapM_map]
    exact mapM_eq_some fun e he => congrArg (Option.map _) (h e he)
  rw [dict?, htable, Option.bind_eq_bind, Option.bind_some, hentries]
  exact congrArg some (Dict.ofList_entries _)

theorem dict_of_eq {read : Reader Json β} {f : α → β} {d : Dict α}
    (h : ∀ x ∈ d.values, read (toJson x) = some (f x)) : ReadAs (dict? read) d (d.map f) :=
  ⟨dict?_ofDict h, rfl⟩

theorem dict {read : Reader Json β} {f : α → β} {d : Dict α}
    (h : ∀ x ∈ d.values, ReadAs read x (f x)) : ReadAs (dict? read) d (d.map f) :=
  dict_of_eq fun x hx => (h x hx).reads

theorem dict_self {read : Reader Json α} {d : Dict α} (h : ∀ x ∈ d.values, ReadAs read x x) :
    ReadAs (dict? read) d d := by
  have hdict : ReadAs (dict? read) d (d.map id) := dict h
  rwa [Dict.map_id] at hdict

theorem values (d : Dict Json) : ReadAs values? d d := by
  have hdict : ReadAs values? d (d.map id) := dict_of_eq fun _ _ => rfl
  rwa [Dict.map_id] at hdict

variable {reader : FieldReader Json β} {names : List String}
  {written members : List (String × Json)}

/-- A record is read back if its fields are, under different names. -/
theorem record (hwritten : toJson x = Json.object written)
    (h : Fields.Reads reader names members y) (hmembers : written = members)
    (hnames : names.Nodup) : ReadAs (record? reader) x y := by
  have hfields : fields? (Json.object members) = some (.named (Dict.ofList members).entries) := rfl
  refine ⟨?_, by rw [hwritten]; rfl⟩
  rw [hwritten, hmembers, record?, hfields, Option.bind_eq_bind, Option.bind_some,
    h.run_ofList hnames]
  rfl

/-- A record that refuses unknown fields is read back as well, as nothing else is written. -/
theorem strictRecord (hwritten : toJson x = Json.object written)
    (h : Fields.Reads reader names members y) (hmembers : written = members)
    (hnames : names.Nodup) : ReadAs (strictRecord? reader) x y := by
  have hfields : fields? (Json.object members) = some (.named (Dict.ofList members).entries) := rfl
  refine ⟨?_, by rw [hwritten]; rfl⟩
  rw [hwritten, hmembers, strictRecord?, hfields, Option.bind_eq_bind, Option.bind_some,
    h.run_ofList hnames, h.without_ofList]
  rfl

theorem namedRecord (hwritten : toJson x = Json.object written)
    (h : Fields.Reads reader names members y) (hmembers : written = members)
    (hnames : names.Nodup) : ReadAs (namedRecord? reader) x y := by
  have htable : table? (Json.object members) = some (Dict.ofList members).entries := rfl
  refine ⟨?_, by rw [hwritten]; rfl⟩
  rw [hwritten, hmembers, namedRecord?, htable, Option.bind_eq_bind, Option.bind_some,
    h.run_ofList hnames]
  rfl

end ReadAs

end Pipework.Document
