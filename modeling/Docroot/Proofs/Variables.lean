import Mathlib.Data.List.MinMax
import Mathlib.Tactic.Common
import Docroot.AccessLog
import Docroot.Proofs.Replacing

/-!
The variables of a log pattern, and a single pass over it. The pass takes at each place the longest
name of a variable that stands there, and gives the value for it; all else it copies. Replacing the
variables one after another comes to the same if no value begins the name of a variable that is
replaced later, or goes on with one that the pattern has begun before it.
-/

namespace Docroot.AccessEntry

open Text

inductive Variable
  | remoteAddress | localTime | isoTime | request | method | uri | status | bodyBytes | encoding
  | referer | userAgent | seconds
deriving DecidableEq

namespace Variable

def name : Variable → Text
  | remoteAddress => "$remote_addr".toList
  | localTime => "$time_local".toList
  | isoTime => "$time_iso8601".toList
  | request => "$request".toList
  | method => "$request_method".toList
  | uri => "$request_uri".toList
  | status => "$status".toList
  | bodyBytes => "$body_bytes_sent".toList
  | encoding => "$content_encoding".toList
  | referer => "$http_referer".toList
  | userAgent => "$http_user_agent".toList
  | seconds => "$request_time".toList

def value (e : AccessEntry) : Variable → Text
  | remoteAddress => e.remote
  | localTime => e.time.logForm
  | isoTime => e.time.isoForm
  | request => e.requestLine
  | method => e.method
  | uri => e.uri
  | status => decimal e.status
  | bodyBytes => decimal e.bodyBytes
  | encoding => orDash e.encoding
  | referer => orDash e.referer
  | userAgent => orDash e.userAgent
  | seconds => e.seconds

/-- The variables in the order in which they are replaced. -/
def order : List Variable :=
  [remoteAddress, localTime, isoTime, seconds, method, uri, request, status, bodyBytes, encoding,
    referer, userAgent]

def Before (w v : Variable) : Prop := List.Sublist [w, v] order

instance (w v : Variable) : Decidable (Before w v) :=
  inferInstanceAs (Decidable (List.Sublist [w, v] order))

lemma mem_order (v : Variable) : v ∈ order := by
  cases v <;> decide

lemma name_eq (v : Variable) : v.name = '$' :: v.name.tail := by
  cases v <;> rfl

lemma name_ne_nil (v : Variable) : v.name ≠ [] := by
  cases v <;> decide

lemma dollar_not_mem (v : Variable) : '$' ∉ v.name.tail := by
  cases v <;> decide

/-- A variable is replaced before the others that its name begins with. -/
lemma pairwise_order : order.Pairwise fun v w => ¬ v.name <+: w.name := by
  decide

end Variable

lemma expand_eq (e : AccessEntry) (pattern : Text) : expand pattern e =
    Variable.order.foldl (fun line v => replace v.name (v.value e) line) pattern := rfl

/-! ### The pass -/

/-- The variable with the longest name that the text begins with. -/
def longest? (s : Text) : Option Variable :=
  (Variable.order.filter fun v => v.name.isPrefixOf s).argmax fun v => v.name.length

/-- A part of a pattern: a character that is copied, or a variable. -/
inductive Part
  | char (c : Char)
  | named (v : Variable)
deriving DecidableEq

/-- The parts of a pattern; `skip` counts the characters of a name that are still to be passed
over. -/
def partsFrom : Nat → Text → List Part
  | _, [] => []
  | skip + 1, _ :: r => partsFrom skip r
  | 0, c :: r => match longest? (c :: r) with
    | some v => .named v :: partsFrom (v.name.length - 1) r
    | none => .char c :: partsFrom 0 r

def parts (pattern : Text) : List Part := partsFrom 0 pattern

/-- A part as it stands in the pattern. -/
def Part.plain : Part → Text
  | .char c => [c]
  | .named v => v.name

def plain (ps : List Part) : Text := ps.flatMap Part.plain

lemma plain_char (c : Char) (ps : List Part) : plain (.char c :: ps) = c :: plain ps := rfl

lemma plain_named (v : Variable) (ps : List Part) :
    plain (.named v :: ps) = v.name ++ plain ps := rfl

lemma plain_append (ps qs : List Part) : plain (ps ++ qs) = plain ps ++ plain qs :=
  List.flatMap_append

lemma suffix_plain (ps : List Part) (p : Part) : p.plain <:+ plain (ps ++ [p]) :=
  ⟨plain ps, by rw [plain_append, plain, plain, List.flatMap_singleton]⟩

/-- What a part gives. -/
def Part.given (e : AccessEntry) : Part → Text
  | .char c => [c]
  | .named v => v.value e

/-- The line that one pass over the pattern gives. -/
def onePass (pattern : Text) (e : AccessEntry) : Text := (parts pattern).flatMap (Part.given e)

lemma longest?_eq_some {s : Text} {v : Variable} (h : longest? s = some v) :
    v.name <+: s ∧ ∀ w : Variable, w.name <+: s → w.name.length ≤ v.name.length := by
  have hmem := List.argmax_mem h
  rw [List.mem_filter, List.isPrefixOf_iff_prefix] at hmem
  refine ⟨hmem.2, fun w hw => ?_⟩
  have hw : w ∈ Variable.order.filter fun v => v.name.isPrefixOf s :=
    List.mem_filter.2 ⟨w.mem_order, List.isPrefixOf_iff_prefix.2 hw⟩
  exact List.le_of_mem_argmax (f := fun v : Variable => v.name.length) hw h

lemma longest?_eq_none {s : Text} (h : longest? s = none) (v : Variable) : ¬ v.name <+: s := by
  intro hv
  have hmem : v ∈ Variable.order.filter fun v => v.name.isPrefixOf s :=
    List.mem_filter.2 ⟨v.mem_order, List.isPrefixOf_iff_prefix.2 hv⟩
  rw [List.argmax_eq_none.1 h] at hmem
  exact absurd hmem List.not_mem_nil

lemma partsFrom_eq (skip : Nat) (s : Text) : partsFrom skip s = parts (s.drop skip) := by
  induction s generalizing skip with
  | nil => cases skip <;> rfl
  | cons c r ih =>
    cases skip with
    | zero => rfl
    | succ skip => exact ih skip

lemma parts_cons (c : Char) (r : Text) : parts (c :: r) = match longest? (c :: r) with
    | some v => .named v :: parts (r.drop (v.name.length - 1))
    | none => .char c :: parts r := by
  have hcons : parts (c :: r) = match longest? (c :: r) with
      | some v => .named v :: partsFrom (v.name.length - 1) r
      | none => .char c :: partsFrom 0 r := rfl
  rw [hcons]
  cases longest? (c :: r) with
  | none => rfl
  | some v => simp only [partsFrom_eq]

lemma parts_of_none {c : Char} {r : Text} (h : longest? (c :: r) = none) :
    parts (c :: r) = .char c :: parts r := by
  rw [parts_cons, h]

lemma parts_of_some {v : Variable} {r : Text} (h : longest? (v.name ++ r) = some v) :
    parts (v.name ++ r) = .named v :: parts r := by
  have hcons : v.name ++ r = '$' :: (v.name.tail ++ r) := by
    rw [← List.cons_append, ← v.name_eq]
  rw [hcons] at h ⊢
  rw [parts_cons, h]
  show Part.named v :: parts ((v.name.tail ++ r).drop (v.name.length - 1)) = _
  rw [← List.length_tail, List.drop_left]

/-- At each place the longest name has been taken. -/
inductive Longest : List Part → Prop
  | nil : Longest []
  | char {c : Char} {ps : List Part} (h : ∀ v : Variable, ¬ v.name <+: c :: plain ps)
      (hs : Longest ps) : Longest (.char c :: ps)
  | named {v : Variable} {ps : List Part}
      (h : ∀ w : Variable, w.name <+: v.name ++ plain ps → w.name.length ≤ v.name.length)
      (hs : Longest ps) : Longest (.named v :: ps)

/-- **One pass**: the parts make up the pattern, and at each place the longest name is taken. -/
theorem longest_parts (pattern : Text) :
    plain (parts pattern) = pattern ∧ Longest (parts pattern) := by
  induction hn : pattern.length using Nat.strongRecOn generalizing pattern with
  | ind n ih =>
    cases pattern with
    | nil => exact ⟨rfl, .nil⟩
    | cons c r =>
      rw [List.length_cons] at hn
      cases hl : longest? (c :: r) with
      | none =>
        obtain ⟨hplain, hlongest⟩ := ih r.length (by omega) r rfl
        rw [parts_of_none hl, plain_char, hplain]
        exact ⟨rfl, .char (by rw [hplain]; exact longest?_eq_none hl) hlongest⟩
      | some v =>
        obtain ⟨⟨rest, hrest⟩, hmax⟩ := longest?_eq_some hl
        have hlen := congrArg List.length hrest
        rw [List.length_append, List.length_cons, v.name_eq, List.length_cons] at hlen
        obtain ⟨hplain, hlongest⟩ := ih rest.length (by omega) rest rfl
        rw [← hrest] at hl hmax ⊢
        rw [parts_of_some hl, plain_named, hplain]
        exact ⟨rfl, .named (by rw [hplain]; exact hmax) hlongest⟩

/-! ### One variable after another -/

/-- A part as it stands when these variables have been replaced. -/
def Part.shown (e : AccessEntry) (done : List Variable) : Part → Text
  | .char c => [c]
  | .named v => if v ∈ done then v.value e else v.name

def shown (e : AccessEntry) (done : List Variable) (ps : List Part) : Text :=
  ps.flatMap (Part.shown e done)

lemma shown_char (e : AccessEntry) (done : List Variable) (c : Char) (ps : List Part) :
    shown e done (.char c :: ps) = c :: shown e done ps := rfl

lemma shown_named (e : AccessEntry) (done : List Variable) (v : Variable) (ps : List Part) :
    shown e done (.named v :: ps) =
      (if v ∈ done then v.value e else v.name) ++ shown e done ps := rfl

/-- Where a variable stands in the pattern, its value is foreign to the names of the variables that
are replaced after it. -/
def Undisturbed (e : AccessEntry) (ps : List Part) : Prop :=
  ∀ front w back, ps = front ++ .named w :: back →
    ∀ v : Variable, w.Before v → Foreign v.name (plain front) (w.value e)

lemma shown_nil_done (e : AccessEntry) (ps : List Part) : shown e [] ps = plain ps := by
  unfold shown plain
  congr 1

lemma shown_order (e : AccessEntry) (ps : List Part) :
    shown e Variable.order ps = ps.flatMap (Part.given e) := by
  unfold shown
  congr 1
  funext p
  cases p with
  | char c => rfl
  | named v => exact if_pos v.mem_order

section

variable {e : AccessEntry} {v : Variable} {done : List Variable} {front ps : List Part}

/-- A name that begins in what has not been replaced does not reach into a value; so it stood in the
pattern. -/
lemma prefix_plain_of_shown (hdone : ∀ w ∈ done, w.Before v) {a b : Text} (hab : v.name = a ++ b)
    (ha : a ≠ []) (hfront : a <:+ plain front) (hu : Undisturbed e (front ++ ps))
    (hb : b <+: shown e done ps) : b <+: plain ps := by
  induction ps generalizing front a b with
  | nil => exact hb
  | cons p ps ih =>
    cases b with
    | nil => exact List.nil_prefix
    | cons d b =>
      cases p with
      | char c =>
        rw [shown_char, List.cons_prefix_cons] at hb
        obtain ⟨rfl, hb⟩ := hb
        have hsuffix : a ++ [d] <:+ plain (front ++ [.char d]) := by
          rw [plain_append]
          exact List.suffix_append_self_iff.2 hfront
        have hu : Undisturbed e ((front ++ [.char d]) ++ ps) := by simpa using hu
        have hab : v.name = (a ++ [d]) ++ b := by simpa using hab
        have hrest := ih hab (by simp) hsuffix hu hb
        exact List.cons_prefix_cons.2 ⟨rfl, hrest⟩
      | named w =>
        rw [shown_named] at hb
        split at hb
        · next hw =>
          have hforeign := hu front w ps rfl v (hdone w hw)
          exact absurd (meets_of_prefix_append hb)
            (hforeign.goesOn a _ hab ha (List.cons_ne_nil d b) hfront)
        · -- a name begins with a dollar, and no other is in it
          rw [w.name_eq, List.cons_append, List.cons_prefix_cons] at hb
          obtain ⟨x, a, rfl⟩ := List.exists_cons_of_ne_nil ha
          have hmem : '$' ∈ v.name.tail := by
            rw [hab, hb.1]
            simp
          exact absurd hmem v.dollar_not_mem

lemma not_begins_char (hdone : ∀ w ∈ done, w.Before v) {c : Char}
    (h : ∀ v : Variable, ¬ v.name <+: c :: plain ps)
    (hu : Undisturbed e ((front ++ [.char c]) ++ ps)) : ¬ v.name <+: c :: shown e done ps := by
  intro hp
  rw [v.name_eq, List.cons_prefix_cons] at hp
  obtain ⟨rfl, hp⟩ := hp
  have hfront : ['$'] <:+ plain (front ++ [.char '$']) := suffix_plain front (.char '$')
  have htail := prefix_plain_of_shown hdone (a := ['$']) v.name_eq (by simp) hfront hu hp
  exact h v (by rw [v.name_eq]; exact List.cons_prefix_cons.2 ⟨rfl, htail⟩)

/-- No other name begins in the name of a variable that has its turn later: a longer one would have
been taken by the pass. -/
lemma not_begins_name (hdone : ∀ w ∈ done, w.Before v) {w : Variable} (hvw : ¬ v.name <+: w.name)
    (h : ∀ u : Variable, u.name <+: w.name ++ plain ps → u.name.length ≤ w.name.length)
    (hu : Undisturbed e ((front ++ [.named w]) ++ ps)) {x : Text} (hx : x <:+ w.name)
    (hne : x ≠ []) : ¬ v.name <+: x ++ shown e done ps := by
  intro hp
  rw [w.name_eq, List.suffix_cons_iff, ← w.name_eq] at hx
  rcases hx with rfl | hx
  · obtain ⟨b, hb⟩ := (meets_of_prefix_append hp).resolve_left hvw
    rw [← hb, List.prefix_append_right_inj] at hp
    have hfront : w.name <:+ plain (front ++ [.named w]) := suffix_plain front (.named w)
    have htail := prefix_plain_of_shown hdone hb.symm w.name_ne_nil hfront hu hp
    have hle := h v (by rw [← hb]; exact (List.prefix_append_right_inj _).2 htail)
    have hlen := congrArg List.length hb
    rw [List.length_append] at hlen
    have hnil : b = [] := List.length_eq_zero_iff.1 (by omega)
    have hsame : v.name = w.name := by rw [← hb, hnil, List.append_nil]
    exact hvw (hsame ▸ List.prefix_rfl)
  · -- a name has its only dollar at its front
    obtain ⟨d, x, rfl⟩ := List.exists_cons_of_ne_nil hne
    rw [v.name_eq, List.cons_append, List.cons_prefix_cons] at hp
    exact w.dollar_not_mem (hx.subset (by rw [← hp.1]; exact List.mem_cons_self))

/-- **One step**: replacing the next variable gives its value wherever the pass has found it. -/
lemma replace_shown (hdone : ∀ w ∈ done, w.Before v)
    (hlater : ∀ w : Variable, w ∉ done → w ≠ v → ¬ v.name <+: w.name)
    (hu : Undisturbed e (front ++ ps)) (hl : Longest ps) :
    replace v.name (v.value e) (shown e done ps) = shown e (done ++ [v]) ps := by
  induction hl generalizing front with
  | nil => rfl
  | @char c ps h _ ih =>
    have hu : Undisturbed e ((front ++ [.char c]) ++ ps) := by simpa using hu
    rw [shown_char, shown_char, replace_cons_of_not_begins (not_begins_char hdone h hu), ih hu]
  | @named w ps h _ ih =>
    have hu' : Undisturbed e ((front ++ [.named w]) ++ ps) := by simpa using hu
    rw [shown_named, shown_named, ← ih hu']
    by_cases hw : w ∈ done
    · -- a value is not searched
      have hforeign := hu front w ps rfl v (hdone w hw)
      rw [if_pos hw, if_pos (List.mem_append_left [v] hw)]
      exact replace_append_of_not_begins fun x hx hne hp =>
        hforeign.begins x hx hne (meets_of_prefix_append hp)
    · rw [if_neg hw]
      by_cases hwv : w = v
      · subst hwv
        rw [if_pos (by simp), replace_append w.name_ne_nil]
      · rw [if_neg (by simp [hw, hwv])]
        exact replace_append_of_not_begins fun x hx hne =>
          not_begins_name hdone (hlater w hw hwv) h hu' hx hne

end

/-- **All steps**: when the rest of the variables has been replaced, all of them have been. -/
lemma foldl_replace_shown {e : AccessEntry} {ps : List Part} {done later : List Variable}
    (ho : done ++ later = Variable.order) (hu : Undisturbed e ps) (hl : Longest ps) :
    later.foldl (fun line v => replace v.name (v.value e) line) (shown e done ps) =
      shown e Variable.order ps := by
  induction later generalizing done with
  | nil => rw [← ho, List.append_nil, List.foldl_nil]
  | cons v later ih =>
    have hdone : ∀ w ∈ done, w.Before v := by
      intro w hw
      have hsub : List.Sublist ([w] ++ [v]) (done ++ v :: later) :=
        (List.singleton_sublist.2 hw).append (List.singleton_sublist.2 List.mem_cons_self)
      rwa [ho] at hsub
    have hlater : ∀ w : Variable, w ∉ done → w ≠ v → ¬ v.name <+: w.name := by
      intro w hw hwv
      have hpairwise := Variable.pairwise_order
      rw [← ho, List.pairwise_append] at hpairwise
      have hmem : w ∈ done ++ v :: later := ho ▸ w.mem_order
      rw [List.mem_append, List.mem_cons] at hmem
      exact List.rel_of_pairwise_cons hpairwise.2.1 ((hmem.resolve_left hw).resolve_left hwv)
    have hnone : Undisturbed e ([] ++ ps) := hu
    rw [List.foldl_cons, replace_shown hdone hlater hnone hl]
    exact ih (by simpa using ho)

/-- **One pass or many**: where no value is disturbed, replacing the variables one after another
gives what one pass over the pattern gives. -/
theorem expand_eq_onePass {e : AccessEntry} {pattern : Text}
    (h : Undisturbed e (parts pattern)) : expand pattern e = onePass pattern e := by
  obtain ⟨hplain, hlongest⟩ := longest_parts pattern
  have hall := foldl_replace_shown (List.nil_append Variable.order) h hlongest
  rw [shown_nil_done, hplain, shown_order] at hall
  rw [expand_eq, hall, onePass]

end Docroot.AccessEntry
