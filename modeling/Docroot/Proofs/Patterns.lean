import Mathlib.Data.List.Infix
import Mathlib.Tactic.IntervalCases
import Docroot.Proofs.Dates
import Docroot.Proofs.Variables

/-!
Log patterns. The line that a pattern gives is that of one pass over it as long as no value is taken
for a part of a variable. Which patterns are safe from that, whatever the entry, can be told from
the pattern: numbers and times never hold a variable, and nothing is replaced after the user agent;
but the other parts of a request are searched for the variables that are replaced after them.
-/

namespace Docroot

namespace AccessEntry

open Text

/-! ### Numbers and times -/

/-- The text begins as a number or a year does, and holds no dollar. -/
structure Numeric (s : Text) : Prop where
  exists_head : ∃ c r, s = c :: r ∧ (c.isDigit = true ∨ c = '-' ∨ c = '+')
  dollar_not_mem : '$' ∉ s

lemma dollar_not_mem_padded (width n : Nat) : '$' ∉ padded width n := fun hm =>
  absurd (isDigit_of_mem_padded hm) (by decide)

lemma Numeric.append {s t : Text} (hs : Numeric s) (ht : '$' ∉ t) : Numeric (s ++ t) := by
  obtain ⟨⟨c, r, rfl, hc⟩, hd⟩ := hs
  exact ⟨⟨c, r ++ t, rfl, hc⟩, by rw [List.mem_append, not_or]; exact ⟨hd, ht⟩⟩

lemma numeric_of_isDigit {s : Text} (hne : s ≠ []) (h : ∀ c ∈ s, c.isDigit = true) : Numeric s := by
  obtain ⟨c, r, rfl⟩ := List.exists_cons_of_ne_nil hne
  exact ⟨⟨c, r, rfl, Or.inl (h c List.mem_cons_self)⟩, fun hm => absurd (h _ hm) (by decide)⟩

lemma numeric_decimal (n : Nat) : Numeric (decimal n) :=
  numeric_of_isDigit (decimal_ne_nil n) fun _ hc => isDigit_of_mem_decimal hc

lemma numeric_padded (width n : Nat) : Numeric (padded width n) :=
  numeric_of_isDigit (padded_ne_nil width n) fun _ hc => isDigit_of_mem_padded hc

lemma numeric_yearText (y : Int) : Numeric (Timestamp.yearText y) := by
  unfold Timestamp.yearText
  split
  · exact numeric_padded _ _
  · have hsign : (if y < 0 then '-' else '+') = '-' ∨ (if y < 0 then '-' else '+') = '+' := by
      split <;> simp
    refine ⟨⟨_, _, rfl, Or.inr hsign⟩, ?_⟩
    rw [List.mem_cons, not_or]
    refine ⟨?_, dollar_not_mem_padded _ _⟩
    rcases hsign with h | h <;> rw [h] <;> decide

lemma dollar_not_mem_timeOfDay (c : Clock) : '$' ∉ c.timeOfDay := by
  simp [Clock.timeOfDay, dollar_not_mem_padded]

lemma dollar_not_mem_fraction (n : Nat) : '$' ∉ Timestamp.fraction n := by
  unfold Timestamp.fraction
  split_ifs <;> simp [dollar_not_mem_padded]

lemma dollar_not_mem_offsetForm {separator : Text} (h : '$' ∉ separator) (c : Clock) :
    '$' ∉ c.offsetForm separator := by
  unfold Clock.offsetForm
  rw [List.mem_cons, not_or]
  refine ⟨by split <;> decide, ?_⟩
  simp [dollar_not_mem_padded, h]

lemma numeric_isoForm (c : Clock) : Numeric c.isoForm := by
  unfold Clock.isoForm Timestamp.dateForm
  refine Numeric.append (Numeric.append (numeric_yearText _) ?_) ?_
  · simp [dollar_not_mem_padded]
  · simp [dollar_not_mem_timeOfDay, dollar_not_mem_fraction, dollar_not_mem_offsetForm]

lemma numeric_logForm (c : Clock) : Numeric c.logForm := by
  have hall : ∀ m < 13, '$' ∉ HttpDate.monthName m := by decide
  have hmonth := hall c.date.month (Nat.lt_succ_of_le (Date.month_day_bounds _).1.2)
  unfold Clock.logForm
  refine Numeric.append (numeric_padded _ _) ?_
  simp [hmonth, (numeric_yearText _).dollar_not_mem, dollar_not_mem_timeOfDay,
    dollar_not_mem_offsetForm]

lemma numeric_seconds (e : AccessEntry) : Numeric e.seconds := by
  unfold seconds Decimal.fixed
  exact Numeric.append (numeric_decimal _) (by simp [dollar_not_mem_padded])

/-! ### Values that begin no variable -/

lemma foreign_name {v : Variable} {s : Text} (hs : BeginsOutside v.name.tail s) (hd : '$' ∉ s)
    (before : Text) : Foreign v.name before s :=
  v.name_eq ▸ foreign_of_beginsOutside hs hd before

/-- No other name holds a digit or a sign. -/
lemma Numeric.foreign {s : Text} (hs : Numeric s) {v : Variable} (hv : v ≠ .isoTime)
    (before : Text) : Foreign v.name before s := by
  obtain ⟨⟨c, r, rfl, hc⟩, hd⟩ := hs
  have hname : (v.name.tail.any fun c => c.isDigit || c = '-' || c = '+') = false := by
    revert hv
    cases v <;> decide
  have hbegins : BeginsOutside v.name.tail (c :: r) := by
    intro hm
    have hno := List.any_eq_false.1 hname c hm
    simp only [Bool.or_eq_true, decide_eq_true_eq] at hno
    exact hno (or_assoc.2 hc)
  exact foreign_name hbegins hd before

/-- The day of the month begins with at most a 3, so that only the end of a name goes on in it. -/
lemma eq_of_meets_logForm {b : Text} (hb : b ≠ []) (hs : b <:+ Variable.isoTime.name)
    {c : Clock} (hm : Meets b c.logForm) : b = ['0', '1'] ∨ b = ['1'] := by
  have hday : ∀ d < 32, (padded 2 d).head? ∈ [some '0', some '1', some '2', some '3'] := by decide
  have hdate := hday c.date.day (Nat.lt_succ_of_le (Date.month_day_bounds _).2.2)
  have htails : ∀ b ∈ Variable.isoTime.name.tails,
      b.head? ∈ [some '0', some '1', some '2', some '3'] → b = ['0', '1'] ∨ b = ['1'] := by decide
  obtain ⟨⟨x, r, hx, -⟩, -⟩ := numeric_padded 2 c.date.day
  obtain ⟨y, b, rfl⟩ := List.exists_cons_of_ne_nil hb
  unfold Clock.logForm at hm
  rw [hx, List.cons_append] at hm
  obtain rfl := hm.eq_of_cons
  rw [hx] at hdate
  exact htails _ ((List.mem_tails _ _).2 hs) hdate

/-- Only the first and the tenth to the nineteenth of a month go on with the name of the other
time. -/
lemma foreign_logForm {before : Text} (hfirst : ¬ "$time_iso86".toList <:+ before)
    (htenth : ¬ "$time_iso860".toList <:+ before) (c : Clock) :
    Foreign Variable.isoTime.name before c.logForm where
  goesOn := by
    intro a b hab _ hb hbefore hm
    rcases eq_of_meets_logForm hb ⟨a, hab.symm⟩ hm with rfl | rfl
    · have ha : a = "$time_iso86".toList :=
        List.append_cancel_right (hab.symm.trans (by decide : _ = _ ++ _))
      exact hfirst (ha ▸ hbefore)
    · have ha : a = "$time_iso860".toList :=
        List.append_cancel_right (hab.symm.trans (by decide : _ = _ ++ _))
      exact htenth (ha ▸ hbefore)
  begins := by
    intro x hx hne
    rw [Variable.name_eq]
    exact not_meets_of_not_mem (numeric_logForm c).dollar_not_mem hx hne

/-! ### Patterns that are safe -/

def Custom (pattern : Text) : Prop :=
  pattern ∉ ["combined".toList, "common".toList, "json".toList]

instance (pattern : Text) : Decidable (Custom pattern) :=
  inferInstanceAs (Decidable (pattern ∉ ["combined".toList, "common".toList, "json".toList]))

/-- The texts that are searched for the variables replaced after them. -/
def texts : List Variable := [.remoteAddress, .method, .uri, .request, .encoding, .referer]

/-- The pattern holds no text that is searched, nor does it have the local time where the first or
the tenth of a month would complete the name of the other time. -/
structure Safe (pattern : Text) : Prop where
  texts : ∀ v ∈ texts, .named v ∉ parts pattern
  first : ¬ "$time_iso86$time_local".toList <:+: pattern
  tenth : ¬ "$time_iso860$time_local".toList <:+: pattern

lemma format_of_custom {pattern : Text} (h : Custom pattern) (e : AccessEntry) :
    e.format pattern = e.expand pattern := by
  simp only [Custom, List.mem_cons, List.not_mem_nil, or_false, not_or] at h
  obtain ⟨hcombined, hcommon, hjson⟩ := h
  unfold format
  rw [if_neg hcombined, if_neg hcommon, if_neg hjson]

lemma Safe.undisturbed {pattern : Text} (h : Safe pattern) (e : AccessEntry) :
    Undisturbed e (parts pattern) := by
  intro front w back hparts v hv
  have hmem : .named w ∈ parts pattern := by rw [hparts]; simp
  have hnot : w ∉ AccessEntry.texts := fun hw => h.texts w hw hmem
  have hplain : plain front ++ w.name ++ plain back = pattern := by
    rw [← (longest_parts pattern).1, hparts, plain_append, plain_named, List.append_assoc]
  cases w with
  | remoteAddress | method | uri | request | encoding | referer =>
    exact absurd (by decide) hnot
  | userAgent => exact absurd hv (by cases v <;> decide)
  | isoTime => exact (numeric_isoForm _).foreign (by rintro rfl; revert hv; decide) _
  | seconds => exact (numeric_seconds e).foreign (by rintro rfl; revert hv; decide) _
  | status => exact (numeric_decimal _).foreign (by rintro rfl; revert hv; decide) _
  | bodyBytes => exact (numeric_decimal _).foreign (by rintro rfl; revert hv; decide) _
  | localTime =>
    by_cases hiso : v = .isoTime
    · have hstands : ∀ a, a <:+ plain front → a ++ Variable.localTime.name <:+: pattern := by
        rintro a ⟨x, hx⟩
        exact ⟨x, plain back, by rw [← hplain, ← hx]; simp⟩
      exact hiso ▸ foreign_logForm (fun hs => h.first (hstands _ hs))
        (fun hs => h.tenth (hstands _ hs)) e.time
    · exact (numeric_logForm _).foreign hiso _

/-! ### Patterns that are not -/

/-- A name that does not stand in a line comes into it with no value that is foreign to it. -/
lemma not_infix_foldl {e : AccessEntry} {w : Variable} {later : List Variable}
    (h : ∀ v ∈ later, ∀ before, Foreign w.name before (v.value e)) {line : Text}
    (hline : ¬ w.name <:+: line) :
    ¬ w.name <:+: later.foldl (fun line v => replace v.name (v.value e) line) line := by
  induction later generalizing line with
  | nil => exact hline
  | cons v later ih =>
    rw [List.forall_mem_cons] at h
    exact ih h.2 fun hi => hline (infix_of_infix_replace h.1 w.name_ne_nil hi)

lemma not_infix_expand {e : AccessEntry} {w : Variable}
    (h : ∀ v, v = w ∨ w.Before v → ∀ before, Foreign w.name before (v.value e)) (pattern : Text) :
    ¬ w.name <:+: e.expand pattern := by
  obtain ⟨front, back, ho⟩ := List.append_of_mem w.mem_order
  have hback : ∀ v ∈ back, w.Before v := by
    intro v hv
    have hpair : List.Sublist [w, v] (w :: back) := (List.singleton_sublist.2 hv).cons_cons w
    unfold Variable.Before
    rw [ho]
    exact hpair.trans (List.sublist_append_right front _)
  rw [expand_eq, ho, List.foldl_append, List.foldl_cons]
  exact not_infix_foldl (fun v hv => h v (Or.inr (hback v hv)))
    (not_infix_replace_self (h w (Or.inl rfl)) w.name_ne_nil)

lemma parts_of_ne {c : Char} (hc : c ≠ '$') (r : Text) : parts (c :: r) = .char c :: parts r := by
  refine parts_of_none (Option.eq_none_iff_forall_not_mem.2 fun v hv => ?_)
  have hp := (longest?_eq_some hv).1
  rw [v.name_eq, List.cons_prefix_cons] at hp
  exact hc hp.1.symm

lemma exists_append_of_begins {v : Variable} {c : Char} {r y : Text}
    (h : v.name <+: c :: (r ++ '$' :: y)) : ∃ z, c :: r = v.name ++ z := by
  obtain ⟨rest, hrest⟩ := h
  rcases List.append_eq_append_iff.1 (hrest.trans (List.cons_append).symm) with
    ⟨z, hz, -⟩ | ⟨z, hz, hrest⟩
  · exact ⟨z, hz⟩
  · cases z with
    | nil => exact ⟨[], by rw [hz, List.append_nil, List.append_nil]⟩
    | cons d z =>
      rw [List.cons_append, List.cons.injEq] at hrest
      refine absurd ?_ v.dollar_not_mem
      rw [hz, hrest.1]
      simp

lemma exists_parts_append (x y : Text) : ∃ ps, parts (x ++ '$' :: y) = ps ++ parts ('$' :: y) := by
  induction hn : x.length using Nat.strongRecOn generalizing x with
  | ind n ih =>
    cases x with
    | nil => exact ⟨[], rfl⟩
    | cons c r =>
      rw [List.length_cons] at hn
      cases hl : longest? (c :: (r ++ '$' :: y)) with
      | none =>
        obtain ⟨ps, hps⟩ := ih r.length (by omega) r rfl
        exact ⟨.char c :: ps, by rw [List.cons_append, parts_of_none hl, hps, List.cons_append]⟩
      | some v =>
        obtain ⟨z, hz⟩ := exists_append_of_begins (longest?_eq_some hl).1
        have hlen := congrArg List.length hz
        rw [List.length_append, List.length_cons, v.name_eq, List.length_cons] at hlen
        obtain ⟨ps, hps⟩ := ih z.length (by omega) z rfl
        refine ⟨.named v :: ps, ?_⟩
        rw [← List.cons_append, hz, List.append_assoc] at hl
        rw [hz, List.append_assoc, parts_of_some hl, hps, List.cons_append]

lemma parts_of_not_mem {x : Text} (hx : '$' ∉ x) (r : Text) :
    parts (x ++ r) = x.map .char ++ parts r := by
  induction x with
  | nil => rfl
  | cons c x ih =>
    rw [List.mem_cons, not_or] at hx
    rw [List.cons_append, parts_of_ne (Ne.symm hx.1), ih hx.2, List.map_cons, List.cons_append]

lemma parts_localTime (r : Text) :
    parts (Variable.localTime.name ++ r) = .named .localTime :: parts r := by
  have hsame : ∀ v ∈ Variable.order, Meets v.name Variable.localTime.name → v = .localTime := by
    decide
  cases hl : longest? (Variable.localTime.name ++ r) with
  | none => exact absurd (List.prefix_append _ r) (longest?_eq_none hl .localTime)
  | some v =>
    obtain rfl := hsame v v.mem_order (meets_of_prefix_append (longest?_eq_some hl).1)
    exact parts_of_some hl

/-- What has been begun before the local time is copied if the time breaks it off. -/
lemma infix_onePass {x pattern : Text} (hx : '$' ∉ x)
    (hbreak : ∀ v ∈ Variable.order, ¬ Meets v.name ('$' :: (x ++ ['$'])))
    (h : '$' :: x ++ Variable.localTime.name <:+: pattern) (e : AccessEntry) :
    '$' :: x ++ e.time.logForm <:+: onePass pattern e := by
  obtain ⟨front, back, rfl⟩ := h
  have hnone : longest? ('$' :: (x ++ (Variable.localTime.name ++ back))) = none := by
    refine Option.eq_none_iff_forall_not_mem.2 fun v hv => hbreak v v.mem_order ?_
    have hp := (longest?_eq_some hv).1
    have hdollar : '$' :: (x ++ (Variable.localTime.name ++ back)) =
        '$' :: (x ++ ['$']) ++ (Variable.localTime.name.tail ++ back) := by
      rw [Variable.localTime.name_eq]
      simp
    exact meets_of_prefix_append (hdollar ▸ hp)
  obtain ⟨ps, hps⟩ := exists_parts_append front (x ++ (Variable.localTime.name ++ back))
  have hparts : parts (front ++ ('$' :: x ++ Variable.localTime.name) ++ back) =
      ps ++ .char '$' :: (x.map .char ++ .named .localTime :: parts back) := by
    simp only [List.append_assoc, List.cons_append]
    rw [hps, parts_of_none hnone, parts_of_not_mem hx, parts_localTime]
  have hchars : (x.map Part.char).flatMap (Part.given e) = x := by
    rw [List.flatMap_map]
    exact List.flatMap_singleton' x
  refine ⟨ps.flatMap (Part.given e), onePass back e, ?_⟩
  show _ = (parts _).flatMap _
  rw [hparts]
  simp [hchars, Part.given, Variable.value, onePass]

def uniform (text : Text) (seconds : Int) : AccessEntry where
  remote := text
  time := { seconds }
  method := text
  path := text
  bodyBytes := 200
  encoding := some text
  referer := some text
  userAgent := some ['!']
  micros := 2000000

lemma exists_format_ne_of_text {pattern : Text} (hc : Custom pattern) {v : Variable}
    (hv : v ∈ texts) (hmem : .named v ∈ parts pattern) :
    ∃ e : AccessEntry, e.format pattern ≠ onePass pattern e := by
  have hvalue : ∀ v ∈ texts, Variable.userAgent.name <:+:
      v.value (uniform Variable.userAgent.name 0) := by decide
  refine ⟨uniform Variable.userAgent.name 0, fun heq => ?_⟩
  have hstands : v.value (uniform Variable.userAgent.name 0) <:+:
      onePass pattern (uniform Variable.userAgent.name 0) := by
    rw [onePass, List.flatMap_def]
    exact List.infix_of_mem_flatten (List.mem_map_of_mem hmem)
  rw [← heq, format_of_custom hc] at hstands
  refine not_infix_expand (fun w hw before => ?_) pattern ((hvalue v hv).trans hstands)
  have hlast : w = .userAgent := hw.resolve_right (by cases w <;> decide)
  subst hlast
  exact foreign_name (by decide) (by decide) before

lemma exists_format_ne_of_time (x : Text) (seconds : Int) {pattern : Text} (hc : Custom pattern)
    (hx : '$' ∉ x) (hbreak : ∀ v ∈ Variable.order, ¬ Meets v.name ('$' :: (x ++ ['$'])))
    (hvalues : ∀ v ∈ Variable.order, v = .isoTime ∨ Variable.isoTime.Before v →
      BeginsOutside Variable.isoTime.name.tail (v.value (uniform ['!'] seconds)) ∧
        '$' ∉ v.value (uniform ['!'] seconds))
    (hname : Variable.isoTime.name <:+: '$' :: x ++ (uniform ['!'] seconds).time.logForm)
    (h : '$' :: x ++ Variable.localTime.name <:+: pattern) :
    ∃ e : AccessEntry, e.format pattern ≠ onePass pattern e := by
  refine ⟨uniform ['!'] seconds, fun heq => ?_⟩
  have hstands := hname.trans (infix_onePass hx hbreak h (uniform ['!'] seconds))
  rw [← heq, format_of_custom hc] at hstands
  refine not_infix_expand (fun v hv before => ?_) pattern hstands
  obtain ⟨hbegins, hdollar⟩ := hvalues v v.mem_order hv
  exact foreign_name hbegins hdollar before

lemma exists_format_ne {pattern : Text} (hc : Custom pattern) (h : ¬ Safe pattern) :
    ∃ e : AccessEntry, e.format pattern ≠ onePass pattern e := by
  by_contra hall
  refine h ⟨fun v hv hmem => hall (exists_format_ne_of_text hc hv hmem), fun hi => ?_, fun hi => ?_⟩
  · -- the first of January 2001
    exact hall (exists_format_ne_of_time "time_iso86".toList 978307200 hc
      (by decide) (by decide) (by decide +kernel) (by decide +kernel) hi)
  · -- the tenth
    exact hall (exists_format_ne_of_time "time_iso860".toList 979084800 hc
      (by decide) (by decide) (by decide +kernel) (by decide +kernel) hi)

/-- **Log patterns.** The line of a pattern is that of one pass over it where no value is taken for
a part of a variable that is replaced later. So it is for all entries just when the pattern is
safe. -/
theorem format_onePass (pattern : Text) (hc : Custom pattern) :
    (∀ e : AccessEntry, Undisturbed e (parts pattern) → e.format pattern = onePass pattern e) ∧
      ((∀ e : AccessEntry, e.format pattern = onePass pattern e) ↔ Safe pattern) := by
  have hpass : ∀ e : AccessEntry, Undisturbed e (parts pattern) →
      e.format pattern = onePass pattern e := by
    intro e hu
    rw [format_of_custom hc, expand_eq_onePass hu]
  refine ⟨hpass, fun hall => ?_, fun hs e => hpass e (hs.undisturbed e)⟩
  by_contra hs
  obtain ⟨e, he⟩ := exists_format_ne hc hs
  exact he (hall e)

def visit : AccessEntry where
  remote := "::1".toList
  time := { seconds := 0 }
  method := "GET".toList
  path := "/a".toList
  userAgent := some "$status".toList

theorem format_onePass_sample :
    visit.format "$request_method $request_uri $http_user_agent".toList =
        "GET /a $status".toList ∧
      ∀ e : AccessEntry, e.format "$time_local $http_user_agent".toList =
        onePass "$time_local $http_user_agent".toList e := by
  constructor
  · refine ((format_onePass _ (by decide)).1 visit ?_).trans (by decide)
    intro front w back hparts v hv
    have hmem : .named w ∈ parts "$request_method $request_uri $http_user_agent".toList := by
      rw [hparts]
      simp
    have hcases : w = .method ∨ w = .uri ∨ w = .userAgent := by
      revert hmem
      cases w <;> decide
    rcases hcases with rfl | rfl | rfl
    · exact foreign_name (by cases v <;> decide) (by decide) _
    · exact foreign_name (by cases v <;> decide) (by decide) _
    · exact absurd hv (by cases v <;> decide)
  · exact (format_onePass _ (by decide)).2.2 ⟨by decide, by decide, by decide⟩

/-- The path of a request is searched for variables: here the status takes its place. -/
theorem path_expanded : ∃ e : AccessEntry, e.path = "/$status".toList ∧
    onePass "$request_uri".toList e = "/$status".toList ∧
    e.format "$request_uri".toList = "/200".toList :=
  ⟨{ visit with path := "/$status".toList }, by decide, by decide, by decide⟩

end AccessEntry

end Docroot
