import Mathlib.Tactic.Common
import Docroot.Proofs.Judgement
import Docroot.Proofs.LogLines
import Docroot.Service

/-!
What the work on a request tells. The events of a piece of work are those of its steps, and so are
the reasons for which it stops. The steps of a service themselves tell of nothing but in one line:
a header that cannot be sent is quoted, and a malformed precondition is visible ASCII. What is left
are the events of its look-ups.
-/

namespace Docroot

variable {ε ε' α β : Type}

/-- The work tells only of some events, and stops only for some reasons. -/
structure Logged.Keeps (P : Event → Prop) (Q : ε → Prop) (x : Logged ε α) : Prop where
  told : ∀ e ∈ x.events, P e
  stops : StopsFor Q x.result

namespace Logged

variable {P : Event → Prop} {Q : ε → Prop} {x : Logged ε α}

lemma keeps_ofExcept {r : Except ε α} (h : StopsFor Q r) : (ofExcept r).Keeps P Q :=
  ⟨fun _ he => absurd he List.not_mem_nil, h⟩

lemma keeps_pure (a : α) : (pure a : Logged ε α).Keeps P Q := keeps_ofExcept (.ok a)

lemma keeps_tell {e : Event} (h : P e) : (tell e : Logged ε Unit).Keeps P Q :=
  ⟨fun _ he => List.mem_singleton.1 he ▸ h, .ok ()⟩

lemma Keeps.bind {f : α → Logged ε β} (hx : x.Keeps P Q)
    (hf : ∀ a, x.result = .ok a → (f a).Keeps P Q) : (x >>= f).Keeps P Q := by
  show (Logged.bind x f).Keeps P Q
  unfold Logged.bind
  split
  · next a ha =>
    refine ⟨fun e he => ?_, (hf a ha).stops⟩
    rcases List.mem_append.1 he with he | he
    · exact hx.told e he
    · exact (hf a ha).told e he
  · next e he => exact ⟨hx.told, .error (hx.stops e he)⟩

lemma Keeps.mapError (hx : x.Keeps P Q) {f : ε → ε'} {R : ε' → Prop} (h : ∀ e, Q e → R (f e)) :
    (x.mapError f).Keeps P R :=
  ⟨hx.told, hx.stops.mapError h⟩

end Logged

/-- The failure is told in one line. -/
def IoError.OneLine (e : IoError) : Prop := e.message.OneLine

instance (e : IoError) : Decidable e.OneLine := inferInstanceAs (Decidable e.message.OneLine)

/-- If the reason is told, it is told in one line. -/
def Abort.OneLine : Abort → Prop
  | failed failure => failure.message.OneLine
  | undatable => True

lemma IoError.OneLine.abort {e : IoError} (h : e.OneLine) : Abort.OneLine (.failed (.io e)) :=
  Text.oneLine_append.2 ⟨by decide, h⟩

/-- So does the work that may use the memory, whatever is in it. -/
def Serving.Keeps (P : Event → Prop) (x : Serving α) : Prop :=
  ∀ n, (x n).work.Keeps P Abort.OneLine

namespace Serving

variable {P : Event → Prop}

lemma keeps_lift {x : Logged Abort α} (h : x.Keeps P Abort.OneLine) : Keeps P (lift x) :=
  fun _ => h

lemma keeps_pure (a : α) : Keeps P (pure a) := fun _ => Logged.keeps_pure a

lemma keeps_tell {e : Event} (h : P e) : Keeps P (tell e) := keeps_lift (Logged.keeps_tell h)

lemma keeps_reading {x : Logged IoError α} (h : x.Keeps P IoError.OneLine) :
    Keeps P (reading x) :=
  keeps_lift (h.mapError fun _ => IoError.OneLine.abort)

lemma keeps_preferred (lines : List Text) : Keeps P (preferred lines) :=
  fun _ => Logged.keeps_pure _

lemma Keeps.bind {x : Serving α} {f : α → Serving β} (hx : Keeps P x)
    (hf : ∀ a n, (x n).work.result = .ok a → Keeps P (f a)) : Keeps P (x >>= f) := by
  intro n
  show (Serving.bind x f n).work.Keeps P Abort.OneLine
  unfold Serving.bind
  split
  · next a ha =>
    have hfa := hf a n ha (x n).negotiator
    refine ⟨fun e he => ?_, hfa.stops⟩
    rcases List.mem_append.1 he with he | he
    · exact (hx n).told e he
    · exact hfa.told e he
  · next e he => exact ⟨(hx n).told, .error ((hx n).stops e he)⟩

end Serving

/-! ### Preconditions -/

namespace Precondition

open Text

lemma oneLine_of_visible? {b : Bytes} {s : Text} (h : b.visible? = some s) : s.OneLine := by
  unfold Bytes.visible? at h
  split at h
  · next hb =>
    cases h
    intro hm
    obtain ⟨x, hx, hc⟩ := List.mem_map.1 hm
    have hv := List.all_eq_true.1 hb x hx
    have hten : x.toNat = 10 := by
      rw [← toNat_ofNat, hc]
      rfl
    rw [show x = 10 from UInt8.toNat_inj.1 hten] at hv
    exact absurd hv (by decide)
  · cases h

lemma oneLine_of_joined {headers : Headers} {name list : Text}
    (h : joined headers name = some list) : list.OneLine := by
  unfold joined at h
  split at h
  · cases h
  · cases h
    refine oneLine_joinWith (by decide) fun s hs => ?_
    obtain ⟨b, -, hb⟩ := List.mem_filterMap.1 hs
    exact oneLine_of_visible? hb

lemma stopsFor_lastModified (resource : Resource) :
    StopsFor Abort.OneLine resource.lastModified := by
  intro e he
  rw [Resource.eq_undatable_of_lastModified he]
  trivial

lemma stopsFor_evaluate (headers : Headers) (resource : Resource) (useTags : Bool) :
    StopsFor Abort.OneLine (evaluate headers resource useTags) := by
  have hd : StopsFor Abort.OneLine (decided headers resource useTags) := by
    refine stopsFor_decided fun name list hl => ?_
    show Text.OneLine (_ ++ (_ ++ list))
    rw [oneLine_append, oneLine_append]
    exact ⟨by decide, by decide, oneLine_of_joined hl⟩
  rw [evaluate_eq]
  split
  · next e he => exact .error (hd e he)
  · exact .ok _
  · intro e he
    exact stopsFor_lastModified resource e (byDates_eq_error_iff.1 he).2

end Precondition

/-! ### Replies -/

section Replies

variable {P : Event → Prop} (hP : ∀ e : Event, e.OneLine → P e)

include hP

lemma Draft.keeps_putText {Q : ε → Prop} {name : Text} (hn : name.OneLine) (value : Text)
    (d : Draft) : (d.putText name value : Logged ε Draft).Keeps P Q := by
  unfold putText
  split
  · exact Logged.keeps_pure _
  · exact ⟨fun e he => List.mem_singleton.1 he ▸ hP _ (Event.oneLine_droppedHeader hn value), .ok d⟩

namespace Representation

lemma keeps_putText? {name : Text} (hn : name.OneLine) (value : Option Text) (d : Draft) :
    (putText? name value d).Keeps P Abort.OneLine := by
  cases value with
  | none => exact Logged.keeps_pure d
  | some v => exact d.keeps_putText hP hn v

lemma keeps_describe (resource : Resource) (length : SentLength) (options : Options) (d : Draft) :
    (describe resource length options d).Keeps P Abort.OneLine := by
  unfold describe
  refine (Logged.keeps_ofExcept (Precondition.stopsFor_lastModified resource)).bind fun _ _ => ?_
  refine (keeps_putText? hP (by decide) _ _).bind fun _ _ => ?_
  refine (keeps_putText? hP (by decide) _ _).bind fun _ _ => ?_
  refine (keeps_putText? hP (by decide) _ _).bind fun _ _ => ?_
  exact (keeps_putText? hP (by decide) _ _).bind fun _ _ => Logged.keeps_pure _

end Representation

lemma Reply.keeps_withField {Q : ε → Prop} (status : Nat) (name value : Text) (headers : Headers) :
    (withField status name value headers : Logged ε Reply).Keeps P Q := by
  unfold withField
  split
  · exact Logged.keeps_pure _
  · exact ⟨fun e he => List.mem_singleton.1 he ▸ hP _ (Event.oneLine_unbuildableReply status),
      .ok _⟩

lemma Reply.keeps_notModified (tag : Option Text) :
    (notModified tag : Logged Abort Reply).Keeps P Abort.OneLine := by
  cases tag with
  | none => exact Logged.keeps_pure _
  | some tag => exact keeps_withField hP _ _ _ _

namespace Delivery

omit hP in
lemma stopsFor_assemble (data : Bytes) (segments : List Segment) :
    StopsFor IoError.OneLine (assemble data segments) := by
  induction segments with
  | nil => exact .ok _
  | cons segment r ih =>
    cases segment with
    | literal b => exact ih.map _
    | all => exact ih.map _
    | range x =>
      unfold assemble
      split
      · exact ih.map _
      · exact .error (by decide)

omit hP in
lemma stopsFor_bodyOf (options : Options) (headOnly : Bool) (resource : Resource)
    (segments : List Segment) :
    StopsFor Abort.OneLine (bodyOf options headOnly resource segments) := by
  unfold bodyOf
  split
  · exact .ok _
  · split
    · exact ((stopsFor_assemble _ _).map _).mapError fun _ => IoError.OneLine.abort
    · exact .ok _

lemma keeps_send (options : Options) (headOnly : Bool) (path : Text) (resource : Resource)
    (x : Draft × List Segment) : (send options headOnly path resource x).Keeps P Abort.OneLine := by
  unfold send
  refine (Logged.keeps_tell (hP _ (Event.oneLine_of_no_trouble rfl))).bind fun _ _ => ?_
  exact (Logged.keeps_ofExcept (stopsFor_bodyOf options headOnly resource x.2)).bind
    fun _ _ => Logged.keeps_pure _

lemma keeps_notSatisfiable (options : Options) (headOnly : Bool) (resource : Resource)
    (d : Draft) : (notSatisfiable options headOnly resource d).Keeps P Abort.OneLine := by
  unfold notSatisfiable
  refine (Representation.keeps_describe hP _ _ _ _).bind fun _ _ => ?_
  exact (Draft.keeps_putText hP (by decide) _ _).bind fun _ _ => Logged.keeps_pure _

lemma keeps_multipart (boundary : Text) (ranges : List ByteRange) (total : Nat) (d : Draft) :
    (multipart boundary ranges total d).Keeps P Abort.OneLine := by
  unfold multipart
  exact (Draft.keeps_putText hP (by decide) _ _).bind fun _ _ => Logged.keeps_pure _

lemma keeps_partial206 (options : Options) (boundary : Text) (resource : Resource)
    (ranges : List ByteRange) (d : Draft) :
    (partial206 options boundary resource ranges d).Keeps P Abort.OneLine := by
  unfold partial206
  extract_lets d' total
  split
  · refine (Representation.keeps_describe hP _ _ _ _).bind fun _ _ => ?_
    exact (Draft.keeps_putText hP (by decide) _ _).bind fun _ _ => Logged.keeps_pure _
  · exact (Representation.keeps_describe hP _ _ _ _).bind fun _ _ => keeps_multipart hP _ _ _ _

lemma keeps_deliver (options : Options) (boundary : Text) (headOnly : Bool) (path : Text)
    (rangeLines : List Text) (resource : Resource) (d : Draft) :
    (deliver options boundary headOnly path rangeLines resource d).Keeps P Abort.OneLine := by
  unfold deliver
  split
  · exact (Representation.keeps_describe hP _ _ _ _).bind fun _ _ => keeps_send hP _ _ _ _ _
  · exact keeps_notSatisfiable hP _ _ _ _
  · exact (keeps_partial206 hP _ _ _ _ _).bind fun _ _ => keeps_send hP _ _ _ _ _

end Delivery

end Replies

/-! ### Services -/

namespace Service

open Serving

/-- The parts of a service, for a request for this path: their look-ups tell only of some events,
and what stops them can be told in one line. -/
structure Keeps (s : Service) (P : Event → Prop) (path : Text) : Prop where
  told : ∀ e : Event, e.OneLine → P e
  lookup : (s.lookup path).Keeps P IoError.OneLine
  target {found : Found} {target : Text} (hf : (s.lookup path).result = .ok (some found))
    (hw : s.welcome path found.resource = .ok (some target)) :
    (s.lookup target).Keeps P IoError.OneLine
  welcome (directory : Resource) : StopsFor IoError.OneLine (s.welcome path directory)
  listing (directory : Resource) (base : Text) (parent : Bool) (query : Option Text) :
    StopsFor Abort.OneLine (s.listing directory base parent query)

variable {s : Service} {P : Event → Prop} {q : Inquiry}

lemma Keeps.quietly (h : s.Keeps P q.path) {e : Event} (he : e.line.level.isTrouble = false) :
    Serving.Keeps P (tell e) :=
  keeps_tell (h.told e (Event.oneLine_of_no_trouble he))

lemma Keeps.intercepted (h : s.Keeps P q.path) (resource : Resource) :
    Serving.Keeps P (intercepted s q resource) := by
  unfold Service.intercepted
  refine (keeps_lift (Logged.keeps_ofExcept
    (Precondition.stopsFor_evaluate q.headers resource s.options.tags))).bind fun verdict _ _ => ?_
  cases verdict with
  | proceed => exact keeps_pure _
  | notModified tag =>
    refine (h.quietly rfl).bind fun _ _ _ => ?_
    exact (keeps_lift (Reply.keeps_notModified h.told tag)).bind fun _ _ _ => keeps_pure _
  | failed => exact (h.quietly rfl).bind fun _ _ _ => keeps_pure _

lemma Keeps.deliver (h : s.Keeps P q.path) (resource : Resource) (d : Draft) :
    Serving.Keeps P (deliver s q resource d) :=
  keeps_lift (Delivery.keeps_deliver h.told _ _ _ _ _ _ _)

lemma Keeps.send (h : s.Keeps P q.path) (found : Found) (d : Draft) :
    Serving.Keeps P (send s q found d) := by
  unfold Service.send
  split
  · refine (keeps_preferred _).bind fun order _ _ => ?_
    split
    · exact (h.quietly rfl).bind fun _ _ _ => h.deliver _ _
    · exact h.deliver _ _
  · exact h.deliver _ _

lemma Keeps.answerFile (h : s.Keeps P q.path) (path : Text) (found : Found) :
    Serving.Keeps P (answerFile s q path found) := by
  unfold Service.answerFile
  refine (h.intercepted found.resource).bind fun reply? _ _ => ?_
  cases reply? with
  | some reply => exact keeps_pure reply
  | none => exact h.send _ _

lemma Keeps.answerListing (h : s.Keeps P q.path) (directory : Resource) :
    Serving.Keeps P (answerListing s q directory) := by
  unfold Service.answerListing
  split
  · exact keeps_pure _
  · refine (keeps_lift (Logged.keeps_ofExcept (h.listing _ _ _ _))).bind fun page? _ _ => ?_
    cases page? <;> exact keeps_pure _

lemma Keeps.redirect (h : s.Keeps P q.path) (location : Text) :
    Serving.Keeps P (lift (Reply.redirect location)) :=
  keeps_lift (Reply.keeps_withField h.told _ _ _ _)

lemma Keeps.answerTarget (h : s.Keeps P q.path) {target : Text}
    (hl : (s.lookup target).Keeps P IoError.OneLine) :
    Serving.Keeps P (answerTarget s q target) := by
  unfold Service.answerTarget
  refine (keeps_reading hl).bind fun found? _ _ => ?_
  cases found? with
  | none => exact keeps_pure _
  | some found =>
    simp only
    split
    · exact keeps_pure _
    · exact h.answerFile _ _

lemma Keeps.answerDirectory (h : s.Keeps P q.path) {found : Found}
    (hf : (s.lookup q.path).result = .ok (some found)) :
    Serving.Keeps P (answerDirectory s q found.resource) := by
  unfold Service.answerDirectory
  refine (keeps_reading (Logged.keeps_ofExcept (h.welcome found.resource))).bind
    fun target? n ht => ?_
  cases target? with
  | none =>
    refine (h.intercepted found.resource).bind fun reply? _ _ => ?_
    cases reply? with
    | some reply => exact keeps_pure reply
    | none => exact h.answerListing _
  | some target =>
    have hw : s.welcome q.path found.resource = .ok (some target) := ok_of_mapError_eq_ok ht
    refine (h.quietly rfl).bind fun _ _ _ => ?_
    unfold welcomeAction
    cases s.options.redirectWelcome with
    | true => exact h.redirect _
    | false => exact h.answerTarget (h.target hf hw)

lemma Keeps.answerMarked (h : s.Keeps P q.path) {found : Found}
    (hf : (s.lookup q.path).result = .ok (some found)) (d : Draft) :
    Serving.Keeps P (answerMarked s q found d) := by
  unfold Service.answerMarked
  split
  · exact h.answerDirectory hf
  · exact h.send _ _

lemma Keeps.answer (h : s.Keeps P q.path) {found : Found}
    (hf : (s.lookup q.path).result = .ok (some found)) : Serving.Keeps P (answer s q found) := by
  unfold Service.answer
  extract_lets directoryForm away without
  split
  · split
    · exact (h.quietly rfl).bind fun _ _ _ => h.redirect _
    · exact h.answerMarked hf _
  · split
    · exact h.redirect _
    · refine (h.intercepted found.resource).bind fun reply? _ _ => ?_
      cases reply? with
      | some reply => exact keeps_pure reply
      | none => exact h.answerMarked hf _

/-- **What a service tells**: nothing but what its look-ups tell, and what takes one line. -/
theorem Keeps.inquire (h : s.Keeps P q.path) : Serving.Keeps P (inquire s q) := by
  unfold Service.inquire
  refine (keeps_reading h.lookup).bind fun found? n hf => ?_
  cases found? with
  | none => exact keeps_pure none
  | some found =>
    have hf' : (s.lookup q.path).result = .ok (some found) := ok_of_mapError_eq_ok hf
    exact (h.answer hf').bind fun _ _ _ => keeps_pure _

end Service

end Docroot
