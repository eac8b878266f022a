import Mathlib.Tactic.Common
import Docroot.Proofs.Grounds
import Docroot.Proofs.Totality
import Docroot.Proofs.Welcome

/-!
Redirections. A location is the written form of the path that is meant, with the query of the
request; so who follows it asks for that path. A slash is added before a welcome file is named and
none is taken away after it, so a client is sent on twice at most.
-/

namespace Docroot

open Text

namespace RequestPath

/-- The raw path and the query of a location: what stands before its first question mark, and what
stands behind it. -/
def parts (location : Text) : Text × Option Text :=
  match cutAt '?' location with
  | some (path, query) => (path, some query)
  | none => (location, none)

def query? (query : Option Text) : Option Text := query.filter fun q => !q.isEmpty

lemma parts_withQuery {written : Text} (h : '?' ∉ written) (query : Option Text) :
    parts (withQuery written query) = (written, query? query) := by
  unfold parts
  rcases query with _ | _ | ⟨c, q⟩
  · simp only [withQuery, cutAt_of_not_mem h]
    rfl
  · simp only [withQuery, cutAt_of_not_mem h]
    rfl
  · simp only [withQuery, cutAt_append h]
    rfl

def GraphicQuery (query : Option Text) : Prop := ∀ q ∈ query, q.Graphic

instance (query : Option Text) : Decidable (GraphicQuery query) :=
  inferInstanceAs (Decidable (∀ q ∈ query, q.Graphic))

lemma GraphicQuery.query? {query : Option Text} (h : GraphicQuery query) :
    GraphicQuery (query? query) := by
  intro q hq
  exact h q (Option.filter_eq_some_iff.1 hq).1

lemma graphic_withQuery {written : Text} (h : written.Graphic) {query : Option Text}
    (hq : GraphicQuery query) : (withQuery written query).Graphic := by
  rcases query with _ | _ | ⟨c, q⟩
  · exact h
  · exact h
  · exact h.append (Graphic.cons (by decide) (hq (c :: q) rfl))

lemma prefix_withQuery (written : Text) (query : Option Text) :
    written <+: withQuery written query := by
  rcases query with _ | _ | ⟨c, q⟩
  · exact List.prefix_refl _
  · exact List.prefix_refl _
  · exact List.prefix_append written _

/-- A query does not turn the path before it into a host. -/
lemma not_host_withQuery {written : Text} (ha : ['/'] <+: written) (h : ¬ ['/', '/'] <+: written)
    (query : Option Text) : ¬ ['/', '/'] <+: withQuery written query := by
  obtain ⟨rest, rfl⟩ := ha
  rcases query with _ | _ | ⟨c, q⟩
  · exact h
  · exact h
  · rcases rest with _ | ⟨d, rest⟩
    · simp [withQuery]
    · simpa [withQuery] using h

end RequestPath

open RequestPath

/-- The reply sends the client to a path, and lets it keep the query. -/
structure Reply.Directs (reply : Reply) (location intended : Text) (query : Option Text) :
    Prop where
  field : reply.headers.getAll HeaderName.location = [utf8 location]
  graphic : location.Graphic
  absolute : ['/'] <+: location
  noHost : ¬ ['/', '/'] <+: location
  names : normalize? (parts location).1 = some intended
  query : (parts location).2 = query? query

def Reply.location? (reply : Reply) : Option Text :=
  if reply.status = 302 then reply.headers.text? HeaderName.location else none

def Request.follow (r : Request) (location : Text) : Request :=
  { r with path := (parts location).1, query := (parts location).2 }

namespace Reply

variable {intended : Text} {query : Option Text}

lemma headers_redirected {location : Text} (h : location.Visible) :
    (redirected location).headers =
      [(HeaderName.location, utf8 location), (HeaderName.contentLength, numeral 0)] := by
  unfold redirected
  rw [Headers.value?_of_visible h]
  rfl

lemma directs_redirected (hi : Regular intended) (hq : GraphicQuery query) :
    (redirected (withQuery (encode intended) query)).Directs
      (withQuery (encode intended) query) intended query := by
  have hw := hi.written_encode
  have hgraphic := graphic_withQuery (fun c hc => (hw.chars c hc).graphic) hq
  have hparts := parts_withQuery (fun hm => (hw.chars _ hm).plain.1 rfl) query
  have hprefix := prefix_withQuery (encode intended) query
  refine ⟨?_, hgraphic, hw.absolute.trans hprefix,
    not_host_withQuery hw.absolute hw.noHost query, ?_, ?_⟩
  · rw [headers_redirected hgraphic.visible]
    rfl
  · rw [hparts]
    exact hi.normalize?_encode
  · rw [hparts]

lemma location?_redirected (hi : Regular intended) (hq : GraphicQuery query) :
    (redirected (withQuery (encode intended) query)).location? =
      some (withQuery (encode intended) query) := by
  have hw := hi.written_encode
  have hv := (graphic_withQuery (fun c hc => (hw.chars c hc).graphic) hq).visible
  unfold location?
  rw [headers_redirected hv]
  exact Bytes.visible?_utf8 hv

end Reply

namespace Site

open Service

variable {site : Site} {t : Tree} {b : Text} {arrival : Arrival} {n : Negotiator} {r : Request}

/-! ### One redirection -/

lemma status_ne_of_delivery {path target : Text} {found : Found}
    (ha : aim (site.service t) path r.query = .ok (some (.file target found))) {q : Inquiry}
    {order : List Text} {reply : Reply}
    (h : delivery (site.service t) q order target found = .ok reply) : reply.status ≠ 302 := by
  obtain ⟨p, written, -, -, -, rfl⟩ := exists_sent_of_delivery (leads_of_aim _ ha) h
  show (Delivery.draftFor _ _ _ _ _ _).status ≠ 302
  rw [Delivery.status_draftFor, (status_headers_sent order target found).1]
  split <;> decide

lemma redirects_of_grounds {reply : Reply} (h : site.Grounds t b n r reply)
    (hs : reply.status = 302) :
    ∃ path intended, normalize? r.path = some path ∧ (site.service t).Redirects path intended ∧
      reply = Reply.redirected (withQuery (encode intended) r.query) := by
  cases h with
  | nowhere => cases hs
  | failed f => rcases Reply.status_ofFailure f with h | h <;> rw [h] at hs <;> cases hs
  | @fixed path reply hp hf =>
    cases hf with
    | missing => cases hs
    | refused => cases hs
    | @elsewhere intended h => exact ⟨path, intended, hp, h, rfl⟩
  | verdict _ _ _ _ hv =>
    rcases Precondition.Verdict.status_of_reply? hv with h | h <;> rw [h] at hs <;> cases hs
  | listing _ _ hl => rcases status_of_listingReply hl with h | h <;> rw [h] at hs <;> cases hs
  | file _ ha hd => exact absurd hs (status_ne_of_delivery ha hd)

/-- The path that a client is sent to is the one that it asked for with a slash added or taken away,
or with the name of a welcome file. -/
structure SendsOn (site : Site) (t : Tree) (path intended : Text) : Prop where
  redirects : (site.service t).Redirects path intended
  near : intended = path ++ ['/'] ∨ intended = path.dropLast ∨
    ∃ name ∈ site.settings.resources.welcomeFiles, intended = path ++ name
  regular : Regular intended

lemma sendsOn_of_redirects (hw : site.NamesFiles) {path intended : Text} (hr : Regular path)
    (h : (site.service t).Redirects path intended) : site.SendsOn t path intended := by
  refine ⟨h, ?_, ?_⟩
  · cases h with
    | directory _ _ _ => exact Or.inl rfl
    | file _ _ _ _ => exact Or.inr (Or.inl rfl)
    | welcome hf _ hs ht _ => exact Or.inr (Or.inr (welcomes_of_target hw hr hs hf ht).named)
  · cases h with
    | directory _ _ hs => exact (hr.append_slash hs).1
    | file _ _ hs hl => exact (hr.dropLast hs hl).1
    | welcome hf _ hs ht _ => exact (welcomes_of_target hw hr hs hf ht).regular

/-- A redirection sends the client to a path that is near to the one that it asked for. -/
lemma exists_sendsOn (hw : site.NamesFiles) (hm : r.method = get) {reply : Reply}
    (h : (site.handle t b arrival r n).1.result = .ok reply) (hs : reply.status = 302) :
    ∃ path intended, normalize? r.path = some path ∧ site.SendsOn t path intended ∧
      reply = Reply.redirected (withQuery (encode intended) r.query) := by
  have hreply : methodReply r.method = none := by
    rw [hm]
    exact methodReply_get
  obtain ⟨path, intended, hp, hd, rfl⟩ := redirects_of_grounds (grounds_of_handle hreply h) hs
  exact ⟨path, intended, hp, sendsOn_of_redirects hw (regular_of_normalize? hp) hd, rfl⟩

/-! ### One redirection after another -/

/-- The path is one for which nobody is sent anywhere else. -/
def Final (site : Site) (t : Tree) (path : Text) : Prop :=
  ∀ intended, ¬ (site.service t).Redirects path intended

/-- Who is sent on from a path that ends with a slash has arrived. -/
lemma final_of_slash (hw : site.NamesFiles) {path intended : Text} (hr : Regular path)
    (hs : ['/'] <:+ path) (h : (site.service t).Redirects path intended) :
    site.Final t intended := by
  cases h with
  | directory _ _ hn => exact absurd hs hn
  | file hf hd _ hl =>
    -- without the slash the path leads to the same file
    obtain ⟨-, hslash, hstrip⟩ := hr.dropLast hs hl
    intro next hnext
    cases hnext with
    | directory hf' hd' _ =>
      rw [isDirectory_congr hstrip hf hf', hd] at hd'
      cases hd'
    | file _ _ hs' _ => exact hslash hs'
    | welcome _ _ hs' _ _ => exact hslash hs'
  | welcome hf hd _ ht _ =>
    have hwelcome := welcomes_of_target hw hr hs hf ht
    intro next hnext
    cases hnext with
    | directory hf' hd' _ =>
      rw [hwelcome.found _ hf'] at hd'
      cases hd'
    | file _ _ hs' _ => exact hwelcome.noSlash hs'
    | welcome _ _ hs' _ _ => exact hwelcome.noSlash hs'

/-- Who asks for the path is sent on at least so many times. -/
inductive Chain (site : Site) (t : Tree) : Nat → Text → Prop
  | start (path : Text) : Chain site t 0 path
  | step {k : Nat} {path next : Text} (h : (site.service t).Redirects path next)
      (hc : Chain site t k next) : Chain site t (k + 1) path

/-- **Nobody is sent on three times.** -/
theorem not_chain_three (hw : site.NamesFiles) {path : Text} (hr : Regular path) :
    ¬ site.Chain t 3 path := by
  intro hc
  obtain _ | ⟨h1, hc⟩ := hc
  obtain _ | ⟨h2, hc⟩ := hc
  obtain _ | ⟨h3, -⟩ := hc
  by_cases hs : ['/'] <:+ path
  · exact final_of_slash hw hr hs h1 _ h2
  · -- the first redirection can only have added a slash
    have h := h1
    cases h with
    | directory _ _ _ =>
      exact final_of_slash hw (hr.append_slash hs).1 (List.suffix_append _ _) h2 _ h3
    | file _ _ hs' _ => exact hs hs'
    | welcome _ _ hs' _ _ => exact hs hs'

/-! ### A client that follows -/

/-- The reply that a client gets in the end who follows at most so many locations. -/
def pursue (site : Site) (t : Tree) (b : Text) (arrival : Arrival) :
    Nat → Request → Negotiator → Except Abandoned Reply
  | 0, r, n => (site.handle t b arrival r n).1.result
  | k + 1, r, n =>
    match (site.handle t b arrival r n).1.result with
    | .error e => .error e
    | .ok reply =>
      match reply.location? with
      | some location =>
        pursue site t b arrival k (r.follow location) (site.handle t b arrival r n).2
      | none => .ok reply

lemma follow_withQuery {intended : Text} (hi : Regular intended) (r : Request) :
    r.follow (withQuery (encode intended) r.query) =
      { r with path := encode intended, query := query? r.query } := by
  have hplain : '?' ∉ encode intended := fun hm => (hi.written_encode.chars _ hm).plain.1 rfl
  unfold Request.follow
  rw [parts_withQuery hplain]

lemma status_of_location? {reply : Reply} {location : Text} (h : reply.location? = some location) :
    reply.status = 302 := by
  unfold Reply.location? at h
  split at h
  · assumption
  · cases h

/-- A client that is still sent on after following so many locations was sent on once more. -/
lemma chain_of_pursue (hw : site.NamesFiles) {k : Nat} (hm : r.method = get)
    (hq : GraphicQuery r.query) {reply : Reply} (h : site.pursue t b arrival k r n = .ok reply)
    (hs : reply.status = 302) :
    ∃ path, normalize? r.path = some path ∧ site.Chain t (k + 1) path := by
  -- each turn follows one redirect, and the next request is a regular one again
  induction k generalizing r n with
  | zero =>
    obtain ⟨path, intended, hp, hsends, -⟩ := exists_sendsOn hw hm h hs
    exact ⟨path, hp, .step hsends.redirects (.start _)⟩
  | succ k ih =>
    unfold pursue at h
    split at h
    · cases h
    · next first hfirst =>
      split at h
      · next location hl =>
        obtain ⟨path, intended, hp, hsends, rfl⟩ :=
          exists_sendsOn hw hm hfirst (status_of_location? hl)
        rw [Reply.location?_redirected hsends.regular hq] at hl
        cases hl
        rw [follow_withQuery hsends.regular] at h
        obtain ⟨path', hp', hc⟩ :=
          ih (r := { r with path := encode intended, query := query? r.query }) hm hq.query? h
        obtain rfl := Option.some.inj (hp'.symm.trans hsends.regular.normalize?_encode)
        exact ⟨path, hp, .step hsends.redirects hc⟩
      · next hl =>
        cases h
        obtain ⟨path, intended, -, hsends, rfl⟩ := exists_sendsOn hw hm hfirst hs
        rw [Reply.location?_redirected hsends.regular hq] at hl
        cases hl

lemma exists_pursue_of_dated (ht : t.Dated) (k : Nat) (hm : r.method = get) :
    ∃ reply, site.pursue t b arrival k r n = .ok reply := by
  have hreply : ∀ {r : Request} {n : Negotiator}, r.method = get →
      ∃ reply, (site.handle t b arrival r n).1.result = .ok reply := by
    intro r n hm
    exact exists_reply_of_dated ht (by rw [hm]; exact methodReply_get)
  induction k generalizing r n with
  | zero => exact hreply hm
  | succ k ih =>
    obtain ⟨first, hfirst⟩ := hreply (n := n) hm
    unfold pursue
    rw [hfirst]
    simp only
    split
    · exact ih hm
    · exact ⟨first, rfl⟩

/-- **Redirections**: a client that is sent on by a reply to `GET` gets one location. It is graphic,
an absolute path without a host, keeps the query, and names the path that is meant. A client that
follows two locations is not sent on again; and it gets a reply, unless a date that is needed has no
written form. -/
theorem directs_of_redirect (site : Site) (t : Tree) (b : Text) (arrival : Arrival)
    (n : Negotiator) (hw : site.NamesFiles) (hm : r.method = get) (hq : GraphicQuery r.query) :
    (∀ reply, (site.handle t b arrival r n).1.result = .ok reply → reply.status = 302 →
      ∃ path intended location, normalize? r.path = some path ∧ site.SendsOn t path intended ∧
        reply.Directs location intended r.query) ∧
    (∀ reply, site.pursue t b arrival 2 r n = .ok reply → reply.status ≠ 302) ∧
    (t.Dated → ∃ reply, site.pursue t b arrival 2 r n = .ok reply) := by
  refine ⟨fun reply h hs => ?_, fun reply h hs => ?_, fun ht => exists_pursue_of_dated ht 2 hm⟩
  · obtain ⟨path, intended, hp, hsends, rfl⟩ := exists_sendsOn hw hm h hs
    exact ⟨path, intended, _, hp, hsends, Reply.directs_redirected hsends.regular hq⟩
  · obtain ⟨path, hp, hc⟩ := chain_of_pursue hw hm hq h hs
    exact not_chain_three hw (regular_of_normalize? hp) hc

end Site

namespace Sample

def redirectingSite : Site :=
  ⟨"/srv".toList, { resources := { root := "/srv".toList, redirectWelcome := true } },
    { redirectWelcome := true }⟩

def directoryRequest : Request := ⟨Service.get, "/d".toList, some "v=1".toList, []⟩

end Sample

namespace Site

theorem directs_of_redirect_sample :
    ∃ reply final, (Sample.redirectingSite.handle (Sample.indexTree ⟨0⟩) [] Sample.arrival
        Sample.directoryRequest Sample.redirectingSite.negotiator).1.result = .ok reply ∧
      (∃ intended, reply.Directs "/d/?v=1".toList intended (some "v=1".toList)) ∧
      Sample.redirectingSite.pursue (Sample.indexTree ⟨0⟩) [] Sample.arrival 2
        Sample.directoryRequest Sample.redirectingSite.negotiator = .ok final ∧
      final.status ≠ 302 ∧ final.body = .file "/srv/d/index.html".toList [.all] 32768 := by
  obtain ⟨hfirst, hlast, hreply⟩ := directs_of_redirect Sample.redirectingSite
    (Sample.indexTree ⟨0⟩) [] Sample.arrival Sample.redirectingSite.negotiator
    (r := Sample.directoryRequest) (by decide) rfl (by decide)
  obtain ⟨reply, h, hr⟩ := Sample.exists_of_toOption
    (x := (Sample.redirectingSite.handle (Sample.indexTree ⟨0⟩) [] Sample.arrival
      Sample.directoryRequest Sample.redirectingSite.negotiator).1.result)
    (f := fun x => (x.status, x.headers.getAll HeaderName.location))
    (b := (302, [utf8 "/d/?v=1".toList])) (by decide +kernel)
  obtain ⟨hs, hl⟩ := Prod.mk.inj hr
  obtain ⟨path, intended, location, -, -, hd⟩ := hfirst reply h hs
  have hloc : location = "/d/?v=1".toList := by
    have := hd.field.symm.trans hl
    exact utf8_injective (List.cons.inj this).1
  obtain ⟨final, hfinal⟩ := hreply (Tree.dated_of_entries (by decide))
  obtain ⟨final', hfinal', hbody⟩ := Sample.exists_of_toOption (f := Reply.body)
    (x := Sample.redirectingSite.pursue (Sample.indexTree ⟨0⟩) [] Sample.arrival 2
      Sample.directoryRequest Sample.redirectingSite.negotiator)
    (b := .file "/srv/d/index.html".toList [.all] 32768) (by decide +kernel)
  rw [hfinal] at hfinal'
  cases hfinal'
  exact ⟨reply, final, h, ⟨intended, hloc ▸ hd⟩, hfinal, hlast final hfinal, hbody⟩

/-- **Sent on to nothing**: a client that is sent on twice, to a welcome file that was modified a
nanosecond before 1970, gets no reply there. -/
theorem sent_to_nothing :
    (∃ reply, Sample.redirectingSite.pursue (Sample.indexTree ⟨-1⟩) [] Sample.arrival 1
        Sample.directoryRequest Sample.redirectingSite.negotiator = .ok reply ∧
        reply.location? = some "/d/index.html?v=1".toList) ∧
      Sample.redirectingSite.pursue (Sample.indexTree ⟨-1⟩) [] Sample.arrival 2
        Sample.directoryRequest Sample.redirectingSite.negotiator = .error ⟨⟩ := by
  exact ⟨Sample.exists_of_toOption (by decide +kernel),
    Sample.eq_error_of_toOption (by decide +kernel)⟩

end Site

end Docroot
