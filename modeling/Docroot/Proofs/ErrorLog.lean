import Mathlib.Tactic.Common
import Docroot.Copy
import Docroot.Proofs.Memory
import Docroot.Proofs.Telling
import Docroot.Proofs.Welcome

/-!
The log of warnings and errors. What is told of a request is written there, one line for each event,
unless a text that is not quoted has a line break: the decoded path of a request that failed, or
that of a link that leads out of the root, or the place where the link leads. No header of the
request and no other part of it is written there unquoted.
-/

namespace Docroot

open Text

/-! ### Failures of the tree -/

namespace Tree

variable {t : Tree}

lemma stopsFor_turn (here : Place) (s : Text) : StopsFor IoError.OneLine (t.turn here s) := by
  unfold turn
  split
  · exact .error (by decide)
  · split_ifs
    · exact .ok _
    · exact .error (by decide)
    · exact .ok _
    · exact .ok _
    · exact .error (by decide)
    · exact .error (by decide)
    · split
      · exact .error (by decide)
      · exact .error (by decide)
      · exact .ok _
      · exact .ok _

section

variable {turn : Place → Text → Except IoError Turn}
  (ht : ∀ here s, StopsFor IoError.OneLine (turn here s))

include ht

lemma stopsFor_walkFrom {follow : Place → List Text → Except IoError Place}
    (h : ∀ p names, StopsFor IoError.OneLine (follow p names)) (here : Place) (names : List Text) :
    StopsFor IoError.OneLine (walkFrom turn follow here names) := by
  induction names generalizing here with
  | nil => exact .ok _
  | cons s rest ih =>
    rw [walkFrom_cons]
    split
    · next e he => exact .error (ht here s e he)
    · exact ih _
    · exact h _ _

lemma stopsFor_walkBy (links : Nat) (here : Place) (names : List Text) :
    StopsFor IoError.OneLine (walkBy turn links here names) := by
  induction links generalizing here names with
  | zero => exact stopsFor_walkFrom ht (fun _ _ => .error (by decide)) here names
  | succ links ih => exact stopsFor_walkFrom ht ih here names

lemma stopsFor_resolveBy (path : Text) : StopsFor IoError.OneLine (resolveBy turn path) := by
  unfold resolveBy
  split_ifs
  · exact .error (by decide)
  · exact .error (by decide)
  · exact .error (by decide)
  · exact stopsFor_walkBy ht _ _ _

end

lemma stopsFor_stat (t : Tree) (name : Text) : StopsFor IoError.OneLine (t.stat name) := by
  unfold stat
  split
  · next e he => exact .error (stopsFor_resolveBy stopsFor_turn name e he)
  · split
    · exact .ok _
    · exact .error (by decide)

lemma stopsFor_canonicalize (t : Tree) (name : Text) :
    StopsFor IoError.OneLine (t.canonicalize name) := by
  refine (stopsFor_resolveBy (fun here s => ?_) name).map Place.name
  unfold turnByName
  split
  · exact .error (by decide)
  · exact stopsFor_turn here s

lemma stopsFor_list (t : Tree) (name : Text) : StopsFor IoError.OneLine (t.list name) := by
  unfold list
  split
  · next e he => exact .error (stopsFor_stat t name e he)
  · split
    · exact .ok _
    · exact .error (by decide)
  · exact .error (by decide)

end Tree

lemma Listing.stopsFor_ofTree (t : Tree) (directory : Resource) (base : Text) (parent : Bool)
    (query : Option Text) : StopsFor Abort.OneLine (ofTree t directory base parent query) := by
  unfold ofTree
  split
  · exact .ok _
  · split
    · exact .ok _
    · next e _ he => exact .error (t.stopsFor_list _ e he).abort
    · split
      · exact .ok _
      · exact .error trivial

lemma WelcomeLookup.stopsFor_target (t : Tree) (path : Text) (directory : Resource)
    (names : List Text) : StopsFor IoError.OneLine (target t path directory names) := by
  induction names with
  | nil => exact .ok _
  | cons name names ih =>
    unfold target
    split
    · exact .ok _
    · exact ih
    · exact ih
    · next e _ he => exact .error (t.stopsFor_stat _ e he)

/-! ### Look-ups -/

namespace FileLookup

variable {P : Event → Prop} {t : Tree} {root path : Text} {accepts : Text → Text → Bool}

/-- The only event of a look-up is a link that is not followed. -/
lemma keeps_lookup
    (h : ∀ place e, t.stat (PathName.join root (strip (· == '/') path)) = .ok (place, e) →
      P (.aliasRejected path place.name)) :
    (lookup t root accepts path).Keeps P IoError.OneLine := by
  have hfailed : ∀ {e : IoError}, e.OneLine → (if e.isAbsence then pure none else Logged.fail e :
      Logged IoError (Option Found)).Keeps P IoError.OneLine := by
    intro e he
    split
    · exact Logged.keeps_pure _
    · exact Logged.keeps_ofExcept (.error he)
  unfold lookup
  extract_lets name
  split
  · next e he => exact hfailed (t.stopsFor_stat name e he)
  · next place e he =>
    split
    · next e hc => exact hfailed (t.stopsFor_canonicalize name e hc)
    · next location hc =>
      obtain ⟨p, hp, rfl, -⟩ := Tree.resolve_of_canonicalize hc
      obtain rfl : p = place := Except.ok.inj (hp.symm.trans (Tree.stat_eq_ok_iff.1 he).1)
      split
      · exact Logged.keeps_pure _
      · exact (Logged.keeps_tell (h p _ he)).bind fun _ _ => Logged.keeps_pure _

end FileLookup

namespace CompressedLookup

variable {P : Event → Prop} {inner : Lookup} {path : Text}

lemma keeps_variants {formats : List Format}
    (h : ∀ f ∈ formats, (inner (path ++ f.extension)).Keeps P IoError.OneLine) :
    (variants inner path formats).Keeps P IoError.OneLine := by
  induction formats with
  | nil => exact Logged.keeps_pure _
  | cons f fs ih =>
    rw [List.forall_mem_cons] at h
    exact h.1.bind fun _ _ => (ih h.2).bind fun _ _ => Logged.keeps_pure _

lemma keeps_lookup {formats : List Format} (hi : (inner path).Keeps P IoError.OneLine)
    (h : ∀ f ∈ formats, (inner (path ++ f.extension)).Keeps P IoError.OneLine) :
    (lookup inner formats path).Keeps P IoError.OneLine := by
  have ha : ∀ found, (attach inner formats path found).Keeps P IoError.OneLine := by
    intro found
    unfold attach
    split
    · exact Logged.keeps_pure _
    · refine (keeps_variants h).bind fun vs _ => ?_
      cases vs <;> exact Logged.keeps_pure _
  unfold lookup
  refine hi.bind fun found? _ => ?_
  cases found? with
  | none => exact Logged.keeps_pure _
  | some found => exact (ha found).bind fun _ _ => Logged.keeps_pure _

end CompressedLookup

/-! ### Bodies -/

/-- If the copy ends in a failure, it is told in one line. -/
def Streamed.OneLine (s : Streamed) : Prop := ∀ e, s.failure = some e → e.OneLine

lemma Streamed.OneLine.andThen {s next : Streamed} (hs : s.OneLine) (hn : next.OneLine) :
    (s.andThen next).OneLine := by
  intro e he
  unfold Streamed.andThen at he
  split at he
  · next cause hc => exact hs e (hc.trans he)
  · exact hn e he

namespace Copy

lemma oneLine_segments (size : Nat) (data : Bytes) (segs : List Segment) :
    (segments size data segs).OneLine := by
  induction segs with
  | nil => exact fun _ he => nomatch he
  | cons s r ih =>
    refine Streamed.OneLine.andThen (fun e he => ?_) ih
    cases s with
    | literal b => cases he
    | all => cases he
    | range x =>
      simp only [segment] at he
      split at he <;> cases he
      decide

lemma oneLine_unreadable (segs : List Segment) : (unreadable segs).OneLine := by
  induction segs with
  | nil => exact fun _ he => nomatch he
  | cons s r ih =>
    cases s with
    | literal b => exact Streamed.OneLine.andThen (fun _ he => nomatch he) ih
    | all =>
      intro e he
      cases he
      decide
    | range x =>
      intro e he
      cases he
      decide

lemma oneLine_file (t : Tree) (path : Text) (segs : List Segment) (size : Nat) :
    (file t path segs size).OneLine := by
  unfold file
  split
  · next cause hc =>
    intro e he
    cases he
    exact t.stopsFor_stat path _ hc
  · split
    · exact fun _ he => nomatch he
    · split
      · exact oneLine_segments _ _ _
      · exact oneLine_unreadable _

end Copy

namespace Body

lemma oneLine_of_mem_copyEvents {t : Tree} {body : Body} {e : Event} (h : e ∈ body.copyEvents t) :
    e.OneLine := by
  cases body with
  | empty => cases h
  | full data => cases h
  | file path segs size =>
    obtain ⟨cause, hc, rfl⟩ := Option.map_eq_some_iff.1 (Option.mem_toList.1 h)
    exact Event.oneLine_streamFailed (Copy.oneLine_file t path segs size cause hc)

lemma oneLine_of_mem_abandonEvents {t : Tree} {body : Body} {e : Event}
    (h : e ∈ body.abandonEvents t) : e.OneLine := by
  cases body with
  | empty => cases h
  | full data => cases h
  | file path segs size =>
    have ho := Copy.oneLine_file t path segs size
    rcases hf : Copy.file t path segs size with ⟨_ | ⟨chunk, chunks⟩, failure⟩
    · rw [hf] at ho
      simp only [abandonEvents, hf, Option.mem_toList] at h
      obtain ⟨cause, hc, rfl⟩ := Option.map_eq_some_iff.1 h
      exact Event.oneLine_streamFailed (ho cause hc)
    · simp only [abandonEvents, hf, List.mem_singleton] at h
      rw [h]
      exact Event.oneLine_of_no_trouble rfl

end Body

/-! ### Sites -/

namespace Site

variable (site : Site) (t : Tree) (b : Text) (arrival : Arrival) (r : Request) (n : Negotiator)

/-- What may be told of a request: what is told before a reply is given or given up, and then, of a
reply, what is told while its body is copied, from the tree as it is then, to the end or for a
receiver that is gone. -/
inductive Tells : List Event → Prop
  | givenUp (h : (site.handle t b arrival r n).1.result = .error ⟨⟩) :
      Tells (site.handle t b arrival r n).1.events
  | received {reply : Reply} (h : (site.handle t b arrival r n).1.result = .ok reply)
      (later : Tree) :
      Tells ((site.handle t b arrival r n).1.events ++ reply.body.copyEvents later)
  | abandoned {reply : Reply} (h : (site.handle t b arrival r n).1.result = .ok reply)
      (later : Tree) :
      Tells ((site.handle t b arrival r n).1.events ++ reply.body.abandonEvents later)

/-- How an event of a request for this path breaks its line: a failure is told with a path that has
a line break, or a link that is not followed is told with a name that has one. The link may be the
one at the path, at a welcome file or at a compressed form. -/
inductive Breaks (path : Text) : Event → Prop
  | failed {failure : Failure} (h : ¬ path.OneLine) : Breaks path (.serveFailed path failure)
  | link {welcome extension : Text} {place : Place} {e : TreeEntry}
      (hw : welcome ∈ [] :: site.settings.resources.welcomeFiles)
      (hx : extension ∈ [] :: site.settings.resources.formats.map Format.extension)
      (hs : t.stat (PathName.join site.root (strip (· == '/') (path ++ welcome ++ extension))) =
        .ok (place, e))
      (h : ¬ ((path ++ welcome ++ extension).OneLine ∧ place.name.OneLine)) :
      Breaks path (.aliasRejected (path ++ welcome ++ extension) place.name)

variable {site t b arrival r n}

lemma Breaks.not_oneLine {path : Text} {e : Event} (h : site.Breaks t path e) : ¬ e.OneLine := by
  cases h with
  | failed h => exact fun ho => h (Event.oneLine_serveFailed_iff.1 ho).1
  | link hw hx hs h => exact fun ho => h (Event.oneLine_aliasRejected_iff.1 ho)

/-- The event takes one line, or is one of those that break their line. -/
def Allows (site : Site) (t : Tree) (path : Text) (e : Event) : Prop :=
  e.OneLine ∨ site.Breaks t path e

lemma keeps_files {path welcome extension : Text}
    (hw : welcome ∈ [] :: site.settings.resources.welcomeFiles)
    (hx : extension ∈ [] :: site.settings.resources.formats.map Format.extension) :
    (site.files t (path ++ welcome ++ extension)).Keeps (site.Allows t path) IoError.OneLine := by
  refine FileLookup.keeps_lookup fun place e hs => ?_
  by_cases h : (path ++ welcome ++ extension).OneLine ∧ place.name.OneLine
  · exact Or.inl (Event.oneLine_aliasRejected_iff.2 h)
  · exact Or.inr (.link hw hx hs h)

lemma keeps_lookup {path welcome : Text}
    (hw : welcome ∈ [] :: site.settings.resources.welcomeFiles) :
    (site.lookup t (path ++ welcome)).Keeps (site.Allows t path) IoError.OneLine := by
  have hbase : (site.files t (path ++ welcome ++ [])).Keeps (site.Allows t path) IoError.OneLine :=
    keeps_files hw List.mem_cons_self
  rw [List.append_nil] at hbase
  refine (CompressedLookup.keeps_lookup hbase fun f hf => ?_).bind
    fun _ _ => Logged.keeps_pure _
  exact keeps_files hw (List.mem_cons_of_mem _ (List.mem_map_of_mem hf))

lemma keeps_service (path : Text) : (site.service t).Keeps (site.Allows t path) path where
  told _ h := Or.inl h
  lookup := by
    have h : (site.lookup t (path ++ [])).Keeps (site.Allows t path) IoError.OneLine :=
      keeps_lookup List.mem_cons_self
    rwa [List.append_nil] at h
  target _ hw := by
    obtain ⟨name, hn, rfl, -⟩ := WelcomeLookup.exists_of_target hw
    exact keeps_lookup (List.mem_cons_of_mem _ hn)
  welcome directory := WelcomeLookup.stopsFor_target t path directory _
  listing directory base parent query := Listing.stopsFor_ofTree t directory base parent query

/-- The event takes one line, or breaks it as an event of a request for its path can. -/
def Expects (site : Site) (t : Tree) (r : Request) (e : Event) : Prop :=
  e.OneLine ∨ ∃ path, RequestPath.normalize? r.path = some path ∧ site.Breaks t path e

lemma keeps_settle {path : Text} (hp : RequestPath.normalize? r.path = some path)
    {x : Logged Abort (Option Reply)} (hx : x.Keeps (site.Allows t path) Abort.OneLine) :
    (Service.settle path x).Keeps (site.Expects t r) fun _ => True := by
  have ha : ∀ e ∈ x.events, site.Expects t r e :=
    fun e he => (hx.told e he).imp_right fun hb => ⟨path, hp, hb⟩
  refine ⟨fun e he => ?_, fun _ _ => trivial⟩
  unfold Service.settle at he
  split at he
  · exact ha e he
  · next failure hf =>
    rcases List.mem_append.1 he with he | he
    · exact ha e he
    · obtain rfl := List.mem_singleton.1 he
      by_cases h : path.OneLine
      · exact Or.inl (Event.oneLine_serveFailed_iff.2 ⟨h, hx.stops _ hf⟩)
      · exact Or.inr ⟨path, hp, .failed h⟩
  · exact ha e he

lemma keeps_serve (hp : r.path.OneLine) :
    ((site.service t).serve b r n).1.Keeps (site.Expects t r) fun _ => True := by
  unfold Service.serve
  split
  · split
    · refine ⟨fun e he => ?_, fun _ _ => trivial⟩
      obtain rfl := List.mem_singleton.1 he
      exact Or.inl (Event.oneLine_rejectedPath hp)
    · next q hq =>
      obtain ⟨path, hpath, rfl⟩ := Option.map_eq_some_iff.1 hq
      exact keeps_settle hpath ((keeps_service path).inquire n)
  · exact Logged.keeps_pure _

lemma keeps_respond (hm : r.method.OneLine) (hp : r.path.OneLine) :
    (site.respond t b r n).1.Keeps (site.Expects t r) fun _ => True := by
  have hquiet : ∀ e : Event, e.line.level.isTrouble = false → site.Expects t r e :=
    fun e he => Or.inl (Event.oneLine_of_no_trouble he)
  unfold respond
  split
  · next x hx =>
    unfold methodReply at hx
    split at hx
    · cases hx
    · split at hx <;> cases hx
      · exact Logged.keeps_pure _
      · refine ⟨fun e he => ?_, fun _ _ => trivial⟩
        obtain rfl := List.mem_singleton.1 he
        exact Or.inl (Event.oneLine_methodNotAllowed hm)
  · unfold orNotFound
    refine (keeps_serve hp).bind fun reply? _ => ?_
    cases reply? with
    | some reply => exact Logged.keeps_pure _
    | none => exact (Logged.keeps_tell (hquiet _ rfl)).bind fun _ _ => Logged.keeps_pure _

lemma keeps_handle (hm : r.method.OneLine) (hp : r.path.OneLine) :
    (site.handle t b arrival r n).1.Keeps (site.Expects t r) fun _ => True := by
  unfold handle
  refine (keeps_respond hm hp).bind fun reply _ => ?_
  unfold logAccess
  split
  · refine (Logged.keeps_tell (Or.inl (Event.oneLine_of_no_trouble rfl))).bind fun _ _ => ?_
    exact Logged.keeps_pure _
  · exact Logged.keeps_pure _

lemma Tells.expects (hm : r.method.OneLine) (hp : r.path.OneLine) {events : List Event}
    (h : site.Tells t b arrival r n events) : ∀ e ∈ events, site.Expects t r e := by
  have hh : ∀ e ∈ (site.handle t b arrival r n).1.events, site.Expects t r e :=
    (keeps_handle hm hp).told
  cases h with
  | givenUp h => exact hh
  | received h later =>
    rw [List.forall_mem_append]
    exact ⟨hh, fun e he => Or.inl (Body.oneLine_of_mem_copyEvents he)⟩
  | abandoned h later =>
    rw [List.forall_mem_append]
    exact ⟨hh, fun e he => Or.inl (Body.oneLine_of_mem_abandonEvents he)⟩

/-- **One line for each event**: what is told of a request, whose method and raw path have no line
break in a request line, adds one labelled line for each event to the log of warnings and errors
just when no failure is told with a decoded path that has a line break, and no link that is not
followed is told with a name that has one. The headers of the request do not matter. -/
theorem errorLog_oneEach_iff (hm : r.method.OneLine) (hp : r.path.OneLine) {events : List Event}
    (h : site.Tells t b arrival r n events) :
    LogLine.OneEach (events.map Event.line) ↔
      ∀ path, RequestPath.normalize? r.path = some path → ∀ e ∈ events, ¬ site.Breaks t path e := by
  rw [Event.oneEach_iff]
  constructor
  · intro ho path _ e he hb
    exact hb.not_oneLine (ho e he)
  · intro hn e he
    rcases h.expects hm hp e he with ho | ⟨path, hpath, hb⟩
    · exact ho
    · exact absurd hb (hn path hpath e he)

end Site

namespace Sample

def tangledTree : Tree :=
  ⟨[(["srv".toList], ⟨.directory, ⟨0⟩⟩),
    (["srv".toList, "loop".toList], ⟨.link "loop".toList, ⟨0⟩⟩)]⟩

/-- The failure of a request for a path below that link, and its entry in the access log. -/
def tangledEvents (raw path : Text) : List Event :=
  [.serveFailed path (.io .tooManyLinks),
    .access ("127.0.0.1 - - [01/Jan/1970:00:00:00 +0000] \"GET ".toList ++ raw ++
      " HTTP/1.1\" 500 25 \"-\" \"-\"".toList)]

lemma tells_tangled (raw path : Text)
    (h : ((site.handle tangledTree [] arrival (requestFor raw)
        site.negotiator).1.result.toOption.map fun x => x.body.copyEvents tangledTree) = some [])
    (he : (site.handle tangledTree [] arrival (requestFor raw) site.negotiator).1.events =
      tangledEvents raw path) :
    site.Tells tangledTree [] arrival (requestFor raw) site.negotiator
      (tangledEvents raw path) := by
  obtain ⟨reply, hr, hb⟩ := exists_of_toOption h
  have ht := Site.Tells.received hr tangledTree
  rwa [hb, List.append_nil, he] at ht

end Sample

namespace Site

theorem errorLog_oneEach_sample :
    OneLine (Sample.requestFor "/loop/x".toList).method ∧
      OneLine (Sample.requestFor "/loop/x".toList).path ∧
      ∃ events, Sample.site.Tells Sample.tangledTree [] Sample.arrival
          (Sample.requestFor "/loop/x".toList) Sample.site.negotiator events ∧
        LogLine.troubles (events.map Event.line) = ("[ERROR] Failed to serve resource /loop/x: " ++
          "I/O error: Too many levels of symbolic links (os error 40)\n").toList ∧
        LogLine.OneEach (events.map Event.line) := by
  have hm : OneLine (Sample.requestFor "/loop/x".toList).method := by decide
  have hp : OneLine (Sample.requestFor "/loop/x".toList).path := by decide
  have ht := Sample.tells_tangled "/loop/x".toList "/loop/x".toList (by decide +kernel)
    (by decide +kernel)
  refine ⟨hm, hp, _, ht, by decide +kernel, (errorLog_oneEach_iff hm hp ht).2 ?_⟩
  rintro path hnorm e he hb
  obtain rfl : path = "/loop/x".toList := by
    have hpath : RequestPath.normalize? "/loop/x".toList = some "/loop/x".toList := by
      decide +kernel
    exact Option.some.inj (hnorm.symm.trans hpath)
  cases hb with
  | failed h => exact h (by decide)
  | link => simp [Sample.tangledEvents] at he

/-- A request for a path below the link that has an escaped line break adds a second line, with the
label and the text that it has chosen. -/
theorem forged_line :
    OneLine (Sample.requestFor "/loop/%0A[WARN]%20forged".toList).method ∧
      OneLine (Sample.requestFor "/loop/%0A[WARN]%20forged".toList).path ∧
      ∃ events, Sample.site.Tells Sample.tangledTree [] Sample.arrival
          (Sample.requestFor "/loop/%0A[WARN]%20forged".toList) Sample.site.negotiator events ∧
        LogLine.troubles (events.map Event.line) =
          ("[ERROR] Failed to serve resource /loop/\n[WARN] forged: " ++
            "I/O error: Too many levels of symbolic links (os error 40)\n").toList ∧
        ¬ LogLine.OneEach (events.map Event.line) := by
  refine ⟨by decide, by decide, _, Sample.tells_tangled _ "/loop/\n[WARN] forged".toList
    (by decide +kernel) (by decide +kernel), by decide +kernel, fun h => ?_⟩
  have ho := Event.oneEach_iff.1 h _ List.mem_cons_self
  exact absurd (Event.oneLine_serveFailed_iff.1 ho).1 (by decide)

end Site

end Docroot
