import Mathlib.Tactic.Common
import Docroot.Proofs.Memory
import Docroot.Proofs.Welcome

/-!
Welcome files sent in place. A directory that is answered by its welcome file is answered as a
request for the file itself would be, whatever the header fields ask for.
-/

namespace Docroot

namespace Site

open Serving Service RequestPath

variable {site : Site} {t : Tree} {b : Text} {n : Negotiator}

lemma aim_of_welcome (hr : site.options.redirectWelcome = false) {path target : Text}
    (query : Option Text) {directory : Found}
    (hf : (site.lookup t path).result = .ok (some directory))
    (hd : directory.resource.isDirectory = true) (hs : ['/'] <:+ path)
    (ht : (site.service t).welcome path directory.resource = .ok (some target)) :
    aim (site.service t) path query = (aimAtTarget (site.service t) target).map some := by
  unfold aim
  rw [show ((site.service t).lookup path).result = _ from hf]
  simp only [aimAt, hd, if_true, List.isSuffixOf_iff_suffix.2 hs, aimAtDirectory, ht]
  rw [if_neg (show ¬ (site.service t).options.redirectWelcome = true by
    rw [show (site.service t).options = site.options from rfl, hr]; simp)]

/-- What is concluded about a file does not depend on the path that was asked for. -/
lemma run_conclude_of_path {q : Inquiry} {target : Text} {found : Found}
    (hf : site.Finds t target found) (hd : found.resource.isDirectory = false) (path : Text) :
    run (conclude (site.service t) { q with path := path } (.file target found)) n =
      run (conclude (site.service t) q (.file target found)) n := by
  obtain ⟨p, hh, -⟩ := hf.holds_sent hd
    (consulted (q.headers.lines HeaderName.acceptEncoding) found n).1
  refine Prod.ext ?_ (memory_conclude_congr _ q { q with path := path } rfl _ n)
  rw [run_conclude_file, run_conclude_file, delivery_eq hh.source, delivery_eq hh.source]

lemma run_inquire_in_place (hr : site.options.redirectWelcome = false) {q : Inquiry} {target : Text}
    {directory : Found} (hf : (site.lookup t q.path).result = .ok (some directory))
    (hd : directory.resource.isDirectory = true) (hs : ['/'] <:+ q.path)
    (ht : (site.service t).welcome q.path directory.resource = .ok (some target))
    (hw : site.Welcomes t q.path target) :
    settled (run (inquire (site.service t) q) n).1 =
        settled (run (inquire (site.service t) { q with path := target }) n).1 ∧
      (run (inquire (site.service t) q) n).2 =
        (run (inquire (site.service t) { q with path := target }) n).2 := by
  have haim := aim_of_welcome hr q.query hf hd hs ht
  have hlookup : (site.service t).lookup target = site.lookup t target := rfl
  unfold aimAtTarget at haim
  rw [hlookup] at haim
  rcases hx : (site.lookup t target).result with e | _ | found
  · have htarget : aim (site.service t) target q.query = .error (.failed (.io e)) := by
      rw [aim, hlookup, hx]
    rw [hx] at haim
    rw [run_inquire_of_error haim, run_inquire_of_error (q := { q with path := target }) htarget]
    exact ⟨rfl, rfl⟩
  · -- nothing is there: the one is answered by 404, and so is the other
    have htarget : aim (site.service t) target q.query = .ok none := by
      rw [aim, hlookup, hx]
    rw [hx] at haim
    rw [run_inquire_of_some haim, run_inquire_of_none (q := { q with path := target }) htarget]
    exact ⟨rfl, rfl⟩
  · have hfile := hw.found found hx
    have htarget : aim (site.service t) target q.query = .ok (some (.file target found)) := by
      rw [aim, hlookup, hx]
      simp [aimAt, hfile, hw.noSlash, Except.map]
    simp only [hx, hfile, Bool.false_eq_true, if_false] at haim
    rw [run_inquire_of_some haim, run_inquire_of_some (q := { q with path := target }) htarget,
      run_conclude_of_path (finds_of_lookup hx) hfile target]
    exact ⟨rfl, rfl⟩

/-- **In place**: a directory whose welcome file is sent in place gets the reply that the path of
the file gets, or neither gets one, and the memory learns the same. The delimiter of parts is taken
to be the same. -/
theorem handle_in_place (site : Site) (t : Tree) (b : Text) (arrival arrival' : Arrival)
    (n : Negotiator) (hw : site.NamesFiles) (hr : site.options.redirectWelcome = false)
    {r : Request} (hm : r.method = get ∨ r.method = head) {path name : Text}
    (hp : normalize? r.path = some path) (hs : ['/'] <:+ path)
    {directory : Found} (hf : (site.lookup t path).result = .ok (some directory))
    (hd : directory.resource.isDirectory = true)
    (ht : (site.service t).welcome path directory.resource = .ok (some (path ++ name))) :
    (site.handle t b arrival r n).1.result =
        (site.handle t b arrival' { r with path := encode (path ++ name) } n).1.result ∧
      (site.handle t b arrival r n).2 =
        (site.handle t b arrival' { r with path := encode (path ++ name) } n).2 := by
  have hreply : methodReply r.method = none := if_pos hm
  have hwelcome := welcomes_of_target hw (regular_of_normalize? hp) hs hf ht
  obtain ⟨h1, h2⟩ := site.handle_of_regular t b arrival n hreply hp
  obtain ⟨h1', h2'⟩ := site.handle_of_regular t b arrival' n
    (r := { r with path := encode (path ++ name) }) hreply
    hwelcome.regular.normalize?_encode
  rw [h1, h2, h1', h2']
  exact run_inquire_in_place (q := r.inquiry b path) hr hf hd hs ht hwelcome

theorem handle_in_place_sample :
    let t := Sample.indexTree ⟨0⟩
    let r : Request := ⟨get, "/d/".toList, none, []⟩
    ∃ reply, (Sample.site.handle t [] Sample.arrival r Sample.site.negotiator).1.result =
        .ok reply ∧
      (Sample.site.handle t [] Sample.arrival { r with path := "/d/index.html".toList }
        Sample.site.negotiator).1.result = .ok reply ∧
      reply.status = 200 ∧ reply.body = .file "/srv/d/index.html".toList [.all] 32768 := by
  intro t r
  obtain ⟨reply, h, hreply⟩ := Sample.exists_of_toOption
    (x := (Sample.site.handle t [] Sample.arrival r Sample.site.negotiator).1.result)
    (f := fun x => (x.status, x.body))
    (b := (200, .file "/srv/d/index.html".toList [.all] 32768)) (by decide +kernel)
  obtain ⟨o, hf, ho⟩ := Sample.exists_of_toOption
    (x := (Sample.site.lookup t "/d/".toList).result)
    (f := fun o => o.map fun d => (d.resource.isDirectory,
      ((Sample.site.service t).welcome "/d/".toList d.resource).toOption))
    (b := some (true, some (some "/d/index.html".toList))) (by decide +kernel)
  obtain ⟨directory, rfl, hdir⟩ := Option.map_eq_some_iff.1 ho
  obtain ⟨hd, hw⟩ := Prod.mk.inj hdir
  obtain ⟨target, ht, rfl⟩ := Sample.exists_of_toOption (f := id)
    (x := (Sample.site.service t).welcome "/d/".toList directory.resource)
    (b := some ("/d/".toList ++ "index.html".toList)) (by rw [hw]; rfl)
  obtain ⟨hsame, -⟩ := handle_in_place Sample.site t [] Sample.arrival Sample.arrival
    Sample.site.negotiator (by decide) rfl (r := r) (Or.inl rfl) (by decide +kernel)
    ⟨"/d".toList, rfl⟩ hf hd ht
  refine ⟨reply, h, ?_, Prod.mk.inj hreply⟩
  rw [← h, hsame]
  rfl

end Site

end Docroot
