import Pipework.Identity.CacheKey
import Pipework.Proofs.Digest.Hex
import Pipework.Proofs.Json.Injective
import Pipework.Proofs.Text.Append

/-!
# Messages of cache keys

The fields of a step are put together without marks between them before they are digested. The
parameters, the keys of the predecessors and the cache switch can be told from the message. What
comes before them, the head, is one text: it does not show where a name or a hash ends and the next
one begins, so different steps may have the same message.
-/

namespace Pipework.CacheKey

/-- A text that is the key of some step. -/
def IsKey (s : String) : Prop := ∃ message, s = Digest.sha256Hex message

theorem IsKey.length {s : String} (h : IsKey s) : s.length = 64 := by
  obtain ⟨message, rfl⟩ := h
  exact Digest.length_sha256Hex message

theorem IsKey.brace_notMem {s : String} (h : IsKey s) : '\x7d' ∉ s.toList := by
  obtain ⟨message, rfl⟩ := h
  exact fun hmem => (Digest.isHexDigit_of_mem_sha256Hex hmem).ne_brace rfl

namespace Inputs

/-- For each input fed by a step its name, the key of the step and the output. -/
def artifactFields (i : Inputs) (key : String → String) : List (String × String × String) :=
  i.artifacts.entries.map fun (name, producer, output) => (name, key producer, output)

def artifactText (fields : String × String × String) : String :=
  fields.1 ++ fields.2.1 ++ fields.2.2

/-- Everything that is digested before the parameters. -/
def head (i : Inputs) (key : String → String) : String :=
  i.source ++ i.sourceCode
    ++ String.join ((i.artifactFields key).map artifactText)
    ++ String.join (i.externals.entries.map fun (name, hash) => name ++ hash)

/-- The keys of the steps that run before. -/
def predecessorKeys (i : Inputs) (key : String → String) : List String :=
  i.predecessors.keys.map key

def parameterText (i : Inputs) : String := (Json.ofDict i.parameters).compact

def flag (i : Inputs) : String := if i.cacheEnabled then "cache:1" else "cache:0"

theorem message_eq (i : Inputs) (key : String → String) :
    i.message key
      = i.head key ++ i.parameterText ++ String.join (i.predecessorKeys key) ++ i.flag := by
  rw [message, head, artifactFields, List.map_map]
  rfl

theorem parameterText_inj {i j : Inputs} :
    i.parameterText = j.parameterText ↔ i.parameters = j.parameters := by
  refine ⟨fun h => ?_, fun h => by rw [parameterText, parameterText, h]⟩
  exact Dict.ext_entries (Json.obj.inj (Json.compact_inj h))

theorem flag_inj {i j : Inputs} : i.flag = j.flag ↔ i.cacheEnabled = j.cacheEnabled := by
  unfold flag
  cases i.cacheEnabled <;> cases j.cacheEnabled <;> decide

theorem length_flag (i : Inputs) : i.flag.length = 7 := by
  unfold flag
  cases i.cacheEnabled <;> rfl

/-- All keys that go into a message are keys of steps. -/
def Keyed (i : Inputs) (key : String → String) : Prop := ∀ d ∈ i.dependencies, IsKey (key d)

variable {i j : Inputs} {k l : String → String}

theorem Keyed.isKey_of_mem_predecessorKeys (h : i.Keyed k) {s : String}
    (hs : s ∈ i.predecessorKeys k) : IsKey s := by
  obtain ⟨d, hd, rfl⟩ := List.mem_map.1 hs
  exact h d (List.mem_append_left _ hd)

theorem Keyed.isKey_of_mem_artifactFields (h : i.Keyed k) {name key output : String}
    (he : (name, key, output) ∈ i.artifactFields k) : IsKey key := by
  obtain ⟨⟨name, producer, output⟩, hmem, heq⟩ := List.mem_map.1 he
  cases heq
  refine h producer (List.mem_append_right _ ?_)
  exact List.mem_map.2 ⟨_, List.mem_map.2 ⟨_, hmem, rfl⟩, rfl⟩

/-- The fields after the head are the same. -/
structure SameTail (i j : Inputs) (k l : String → String) : Prop where
  parameters : i.parameters = j.parameters
  predecessors : i.predecessorKeys k = j.predecessorKeys l
  cacheEnabled : i.cacheEnabled = j.cacheEnabled

theorem brace_notMem_join (h : i.Keyed k) :
    '\x7d' ∉ (String.join (i.predecessorKeys k)).toList := by
  rw [String.toList_join, List.mem_flatMap]
  rintro ⟨s, hs, hmem⟩
  exact (h.isKey_of_mem_predecessorKeys hs).brace_notMem hmem

theorem toList_append_parameterText (i : Inputs) (s : String) :
    ∃ cs, (s ++ i.parameterText).toList = cs ++ ['\x7d'] := by
  obtain ⟨inner, -, htext⟩ := Json.block_compact_obj i.parameters.entries
  refine ⟨s.toList ++ '\x7b' :: inner, ?_⟩
  rw [String.toList_append, parameterText, Json.ofDict, htext, List.append_assoc]

/-- The message shows where the head ends: the switch has a fixed length, no key holds a brace, and
before the last brace stands an object. -/
theorem message_inj (hi : i.Keyed k) (hj : j.Keyed l) (h : i.message k = j.message l) :
    i.head k = j.head l ∧ i.SameTail j k l := by
  rw [message_eq, message_eq] at h
  obtain ⟨h, hflag⟩ := Text.append_inj_of_length_right h (by rw [length_flag, length_flag])
  obtain ⟨cs, hcs⟩ := i.toList_append_parameterText (i.head k)
  obtain ⟨ds, hds⟩ := j.toList_append_parameterText (j.head l)
  obtain ⟨h, hkeys⟩ :=
    Text.append_inj_of_notMem hcs hds (brace_notMem_join hi) (brace_notMem_join hj) h
  obtain ⟨hhead, hparameters⟩ := Json.append_compact_obj_inj h
  refine ⟨hhead, parameterText_inj.1 hparameters, ?_, flag_inj.1 hflag⟩
  exact Text.join_inj (by decide : 0 < 64)
    (fun s hs => (hi.isKey_of_mem_predecessorKeys hs).length)
    (fun s hs => (hj.isKey_of_mem_predecessorKeys hs).length) hkeys

theorem message_congr (hhead : i.head k = j.head l) (htail : i.SameTail j k l) :
    i.message k = j.message l := by
  rw [message_eq, message_eq, hhead, parameterText_inj.2 htail.parameters, htail.predecessors,
    flag_inj.2 htail.cacheEnabled]

/-- The fields in the head are the same. -/
structure SameHead (i j : Inputs) (k l : String → String) : Prop where
  source : i.source = j.source
  sourceCode : i.sourceCode = j.sourceCode
  artifacts : i.artifactFields k = j.artifactFields l
  externals : i.externals = j.externals

/-- The fields that go into the message are the same. -/
def Agree (i j : Inputs) (k l : String → String) : Prop := i.SameHead j k l ∧ i.SameTail j k l

/-- The lengths of the texts in the head, and so the places where they are put together. -/
structure Layout where
  source : Nat
  sourceCode : Nat
  artifacts : List (Nat × Nat)
  externals : List (Nat × Nat)
  deriving DecidableEq

def layout (i : Inputs) : Layout where
  source := i.source.length
  sourceCode := i.sourceCode.length
  artifacts := i.artifacts.entries.map fun (name, _, output) => (name.length, output.length)
  externals := i.externals.entries.map fun (name, hash) => (name.length, hash.length)

theorem head_congr (h : i.SameHead j k l) : i.head k = j.head l := by
  rw [head, head, h.source, h.sourceCode, h.artifacts, h.externals]

theorem layout_artifacts (i : Inputs) (k : String → String) :
    i.layout.artifacts
      = (i.artifactFields k).map fun (name, _, output) => (name.length, output.length) := by
  rw [layout, artifactFields, List.map_map]
  rfl

theorem SameHead.layout_eq (h : i.SameHead j k l) : i.layout = j.layout := by
  have hartifacts : i.layout.artifacts = j.layout.artifacts := by
    rw [layout_artifacts i k, layout_artifacts j l, h.artifacts]
  simp only [layout, Layout.mk.injEq]
  exact ⟨by rw [h.source], by rw [h.sourceCode], hartifacts, by rw [h.externals]⟩

theorem artifactFields_inj (hi : i.Keyed k) (hj : j.Keyed l)
    (hl : i.layout.artifacts = j.layout.artifacts) {s t : String}
    (h : String.join ((i.artifactFields k).map artifactText) ++ s
      = String.join ((j.artifactFields l).map artifactText) ++ t) :
    i.artifactFields k = j.artifactFields l ∧ s = t := by
  rw [layout_artifacts i k, layout_artifacts j l] at hl
  refine Text.join_map_append_inj (P := fun e => IsKey e.2.1) ?_
    (fun _ => hi.isKey_of_mem_artifactFields) (fun _ => hj.isKey_of_mem_artifactFields) hl h
  rintro ⟨name, key, output⟩ ⟨name', key', output'⟩ s t hkey hkey' hsize htext
  obtain ⟨hname, houtput⟩ := Prod.mk.inj hsize
  simp only [artifactText, String.append_assoc] at htext
  obtain ⟨rfl, hrest⟩ := Text.append_inj_of_length_left htext hname
  obtain ⟨rfl, hlast⟩ := Text.append_inj_of_length_left hrest (hkey.length.trans hkey'.length.symm)
  obtain ⟨rfl, rfl⟩ := Text.append_inj_of_length_left hlast houtput
  exact ⟨rfl, rfl⟩

theorem externals_inj (hl : i.layout.externals = j.layout.externals)
    (h : String.join (i.externals.entries.map fun (name, hash) => name ++ hash)
      = String.join (j.externals.entries.map fun (name, hash) => name ++ hash)) :
    i.externals = j.externals := by
  refine Dict.ext_entries (Text.join_map_append_inj (P := fun _ => True) (u := "") (v := "") ?_
    (fun _ _ => trivial) (fun _ _ => trivial) hl (by rw [h])).1
  rintro ⟨name, hash⟩ ⟨name', hash'⟩ s t - - hsize htext
  obtain ⟨hname, hhash⟩ := Prod.mk.inj hsize
  simp only [String.append_assoc] at htext
  obtain ⟨rfl, hrest⟩ := Text.append_inj_of_length_left htext hname
  obtain ⟨rfl, rfl⟩ := Text.append_inj_of_length_left hrest hhash
  exact ⟨rfl, rfl⟩

/-- Heads with the same layout are taken apart in the same way. -/
theorem sameHead_of_layout (hi : i.Keyed k) (hj : j.Keyed l) (hl : i.layout = j.layout)
    (h : i.head k = j.head l) : i.SameHead j k l := by
  rw [head, head, String.append_assoc, String.append_assoc, String.append_assoc,
    String.append_assoc] at h
  obtain ⟨hsource, h⟩ := Text.append_inj_of_length_left h (congrArg Layout.source hl)
  obtain ⟨hcode, h⟩ := Text.append_inj_of_length_left h (congrArg Layout.sourceCode hl)
  obtain ⟨hartifacts, h⟩ := artifactFields_inj hi hj (congrArg Layout.artifacts hl) h
  exact ⟨hsource, hcode, hartifacts, externals_inj (congrArg Layout.externals hl) h⟩

/-- Two steps have the same message if and only if their heads come to the same text and the fields
after it are the same. Then all their fields are the same if and only if the heads are put together
at the same places. -/
theorem message_eq_iff (hi : i.Keyed k) (hj : j.Keyed l) :
    ((i.message k).toUTF8 = (j.message l).toUTF8 ↔ i.head k = j.head l ∧ i.SameTail j k l)
    ∧ ((i.message k).toUTF8 = (j.message l).toUTF8 → (i.Agree j k l ↔ i.layout = j.layout)) := by
  have hbytes : (i.message k).toUTF8 = (j.message l).toUTF8 ↔ i.message k = j.message l :=
    String.toByteArray_inj
  rw [hbytes]
  refine ⟨⟨message_inj hi hj, fun h => message_congr h.1 h.2⟩, fun h => ⟨?_, fun hlayout => ?_⟩⟩
  · exact fun hagree => hagree.1.layout_eq
  · obtain ⟨hhead, htail⟩ := message_inj hi hj h
    exact ⟨sameHead_of_layout hi hj hlayout hhead, htail⟩

/-- Part of a source text is taken for the end of an import path. -/
theorem message_eq_iff_shifted_path :
    let i : Inputs := { source := "steps.train", sourceCode := "er(data)",
                        predecessors := .ofList ["loader"] }
    let j : Inputs := { source := "steps.trainer", sourceCode := "(data)",
                        predecessors := .ofList ["loader"] }
    i.Keyed Digest.sha256Hex ∧ j.Keyed Digest.sha256Hex
    ∧ (i.message Digest.sha256Hex).toUTF8 = (j.message Digest.sha256Hex).toUTF8
    ∧ ¬ i.Agree j Digest.sha256Hex Digest.sha256Hex := by
  intro i j
  have hi : i.Keyed Digest.sha256Hex := fun d _ => ⟨d, rfl⟩
  have hj : j.Keyed Digest.sha256Hex := fun d _ => ⟨d, rfl⟩
  have hiff := message_eq_iff hi hj
  have hbytes := hiff.1.2 ⟨rfl, rfl, rfl, rfl⟩
  exact ⟨hi, hj, hbytes, fun hagree => absurd ((hiff.2 hbytes).1 hagree) (by decide)⟩

/-- A step at one import path, and a step at a longer path whose source text is shorter. -/
theorem not_forall_agree :
    ¬ ∀ (i j : Inputs) (k l : String → String), i.Keyed k → j.Keyed l →
      (i.message k).toUTF8 = (j.message l).toUTF8 → i.Agree j k l := by
  intro h
  have hagree := h { source := "steps.train", sourceCode := "er(data)" }
    { source := "steps.trainer", sourceCode := "(data)" } id id
    (fun _ hd => absurd hd List.not_mem_nil) (fun _ hd => absurd hd List.not_mem_nil) rfl
  exact absurd hagree.1.source (by decide)

end Inputs

end Pipework.CacheKey
