import Mathlib.Data.List.Basic
import Docroot.AccessLog
import Docroot.Proofs.JsonReading

/-!
The JSON form of a log line. It is one line whatever texts the entry holds, and a reader of JSON
finds all of the entry in it: so it tells entries apart that differ in anything but their time.
-/

namespace Docroot

namespace Text

/-! ### Control characters -/

def Uncontrolled (s : Text) : Prop := ∀ c ∈ s, 0x20 ≤ c.toNat

instance (s : Text) : Decidable s.Uncontrolled :=
  List.decidableBAll (fun c : Char => 0x20 ≤ c.toNat) s

@[simp] lemma uncontrolled_cons {c : Char} {s : Text} :
    Uncontrolled (c :: s) ↔ 0x20 ≤ c.toNat ∧ Uncontrolled s := List.forall_mem_cons

@[simp] lemma uncontrolled_append {s t : Text} :
    Uncontrolled (s ++ t) ↔ Uncontrolled s ∧ Uncontrolled t := List.forall_mem_append

lemma uncontrolled_jsonChar (c : Char) : Uncontrolled (jsonChar c) := by
  have hall : ∀ n < 0x20, Uncontrolled (jsonControl (Char.ofNat n)) := by decide
  unfold jsonChar
  split_ifs with _ _ hcontrol
  · decide
  · decide
  · exact Char.ofNat_toNat c ▸ hall c.toNat hcontrol
  · intro d hd
    rw [List.mem_singleton.1 hd]
    exact Nat.le_of_not_lt hcontrol

lemma uncontrolled_jsonString (s : Text) : Uncontrolled (jsonString s) := by
  have hs : Uncontrolled (s.flatMap jsonChar) := by
    intro d hd
    obtain ⟨c, -, hd⟩ := List.mem_flatMap.1 hd
    exact uncontrolled_jsonChar c d hd
  unfold jsonString
  rw [uncontrolled_cons, uncontrolled_append]
  exact ⟨by decide, hs, by decide⟩

lemma uncontrolled_write (v : JsonScalar) : Uncontrolled v.write := by
  cases v with
  | null => decide
  | string s => exact uncontrolled_jsonString s
  | number n =>
    intro c hc
    have hdigit := toNat_of_isDigit (isDigit_of_mem_decimal hc)
    omega

lemma uncontrolled_jsonMembers (ms : List (Text × JsonScalar)) : Uncontrolled (jsonMembers ms) := by
  induction ms with
  | nil => exact fun _ hc => absurd hc List.not_mem_nil
  | cons m ms ih =>
    have hcons : jsonMembers (m :: ms) =
        ',' :: (jsonString m.1 ++ ':' :: m.2.write ++ jsonMembers ms) := rfl
    rw [hcons, uncontrolled_cons, uncontrolled_append, uncontrolled_append, uncontrolled_cons]
    exact ⟨by decide, ⟨uncontrolled_jsonString m.1, by decide, uncontrolled_write m.2⟩, ih⟩

lemma uncontrolled_jsonObject (ms : List (Text × JsonScalar)) : Uncontrolled (jsonObject ms) := by
  have hdrop : Uncontrolled ((jsonMembers ms).drop 1) :=
    fun c hc => uncontrolled_jsonMembers ms c (List.mem_of_mem_drop hc)
  unfold jsonObject
  rw [uncontrolled_cons, uncontrolled_append]
  exact ⟨by decide, hdrop, by decide⟩

end Text

namespace AccessEntry

open Text Json

def optional (t : Option Text) : Value :=
  match t with
  | some s => .string s
  | none => .null

/-- The keys of a line with their values. -/
def fields (e : AccessEntry) : List (Text × Value) :=
  [("remote_addr".toList, .string e.remote),
    ("time".toList, .string e.time.isoForm),
    ("method".toList, .string e.method),
    ("path".toList, .string e.path),
    ("query".toList, optional e.query),
    ("http_version".toList, .string e.version),
    ("status".toList, .number e.status 0),
    ("body_bytes".toList, .number e.bodyBytes 0),
    ("content_encoding".toList, optional e.encoding),
    ("referer".toList, optional e.referer),
    ("user_agent".toList, optional e.userAgent),
    ("request_time_us".toList, .number e.micros 0)]

lemma ofScalar_injective : Function.Injective Value.ofScalar := by
  intro v w h
  cases v <;> cases w <;> simp_all [Value.ofScalar]

lemma ofScalar_scalar (t : Option Text) : Value.ofScalar (scalar t) = optional t := by
  cases t <;> rfl

lemma scalar_injective : Function.Injective scalar := by
  intro t u h
  cases t <;> cases u <;> simp_all [scalar]

lemma perm_fields (e : AccessEntry) :
    (e.members.map (Prod.map id Value.ofScalar)).Perm e.fields := by
  have hplaces : [7, 8, 5, 2, 3, 4, 9, 0, 11, 6, 1, 10].Perm (List.range 12) := by decide
  have hmembers : e.members.map (Prod.map id Value.ofScalar) =
      [7, 8, 5, 2, 3, 4, 9, 0, 11, 6, 1, 10].map fun i => e.fields.getD i ([], .null) := by
    simp only [members, List.map_cons, List.map_nil, Prod.map_apply, ofScalar_scalar]
    rfl
  rw [hmembers]
  exact hplaces.map fun i => e.fields.getD i ([], .null)

lemma read_format (e : AccessEntry) : read (e.format "json".toList) =
    some (.object (e.members.map (Prod.map id Value.ofScalar))) :=
  read_jsonObject e.members

/-- The members tell all of an entry, of its time no more than is written. -/
lemma members_eq_iff {e e' : AccessEntry} : e.members = e'.members ↔
    { e with time := e'.time } = e' ∧ e.time.isoForm = e'.time.isoForm := by
  constructor
  · intro h
    simp only [members, List.cons.injEq, Prod.mk.injEq, JsonScalar.string.injEq,
      JsonScalar.number.injEq, scalar_injective.eq_iff, true_and, and_true] at h
    obtain ⟨hbytes, hencoding, hversion, hmethod, hpath, hquery, hreferer, hremote, hmicros,
      hstatus, htime, hagent⟩ := h
    refine ⟨?_, htime⟩
    cases e'
    simp_all
  · rintro ⟨h, htime⟩
    rw [← h]
    simp only [members, htime]

/-- **The JSON form** is one line without loss: a reader finds in it an object with the twelve keys,
each once and each with its value, so that entries with one line differ at most in time. -/
theorem read_json :
    (∀ e : AccessEntry, '\n' ∉ e.format "json".toList ∧ '\r' ∉ e.format "json".toList ∧
      ∃ members, read (e.format "json".toList) = some (.object members) ∧
        members.Perm e.fields ∧ (members.map Prod.fst).Nodup) ∧
    ∀ e e' : AccessEntry, e.format "json".toList = e'.format "json".toList ↔
      { e with time := e'.time } = e' ∧ e.time.isoForm = e'.time.isoForm := by
  refine ⟨fun e => ⟨fun hn => ?_, fun hr => ?_, _, read_format e, perm_fields e, ?_⟩,
    fun e e' => ⟨fun h => members_eq_iff.1 ?_, fun h => ?_⟩⟩
  · exact absurd (uncontrolled_jsonObject e.members _ hn) (by decide)
  · exact absurd (uncontrolled_jsonObject e.members _ hr) (by decide)
  · exact of_decide_eq_true rfl
  · have hread := congrArg read h
    rw [read_format, read_format, Option.some.injEq, Value.object.injEq] at hread
    have hinjective : Function.Injective (Prod.map id Value.ofScalar : Text × JsonScalar → _) :=
      Function.injective_id.prodMap ofScalar_injective
    exact List.map_injective_iff.2 hinjective hread
  · exact congrArg jsonObject (members_eq_iff.2 h)

end AccessEntry

end Docroot
