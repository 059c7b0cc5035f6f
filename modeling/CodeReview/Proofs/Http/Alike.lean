import CodeReview.Proofs.Machine.Trace
import CodeReview.Proofs.Machine.Twins
import CodeReview.Proofs.Url.Alike

/-!
# Exchanges that differ in a secret

Two requests are alike when they are the same but for a secret: one holds the one secret where the
other holds the other, in values of headers; and their addresses are related.

`Indistinct` says that no step of an exchange tells related addresses apart.  Equality is such a
relation, and so is `Url.Alike` for words of a form that take the same room.  Then requests that are
alike, sent by twins, come to the same response or to faults that are alike (`send_agree`).
-/

namespace CodeReview

/-- Two tries that came out the same way, with related faults or related results. -/
inductive Likewise {ε α : Type} (E : ε → ε → Prop) (V : α → α → Prop) :
    Except ε α → Except ε α → Prop
  | error {e e' : ε} : E e e' → Likewise E V (.error e) (.error e')
  | ok {a a' : α} : V a a' → Likewise E V (.ok a) (.ok a')

namespace Http

open CodeReview.Text

/-- Faults of one kind, about related addresses. -/
inductive Fault.Alike (U : Url → Url → Prop) : Fault → Fault → Prop
  | unbuildable {u v : Option Url} : Option.Rel U u v → Alike U (.unbuildable u) (.unbuildable v)
  | unsent {u v : Url} : U u v → Alike U (.unsent u) (.unsent v)
  | late {u v : Url} : U u v → Alike U (.late u) (.late v)
  | astray {u v : Url} : U u v → Alike U (.astray u) (.astray v)
  | unreadable : Alike U .unreadable .unreadable

/-- The same headers but for a secret in their values. -/
def HeadersAlike (a b : String) : List (String × String) → List (String × String) → Prop :=
  List.Forall₂ fun h h' => h.1 = h'.1 ∧ SameBut a b h.2 h'.2

/-- The same requests but for a secret in the values of headers, and for the address. -/
structure Request.Alike (a b : String) (U : Url → Url → Prop) (r r' : Request) : Prop where
  method : r.method = r'.method
  url : U r.url r'.url
  headers : HeadersAlike a b r.headers r'.headers
  body : r.body = r'.body

/-- The address without user name and password. -/
def bare (u : Url) : Url := { u with username := "", password := none }

/-- No step of an exchange tells related addresses apart. -/
structure Indistinct (U : Url → Url → Prop) : Prop where
  refl (u : Url) : U u u
  server {u v : Url} : U u v → u.scheme = v.scheme ∧ u.host = v.host ∧ u.port = v.port
  credentials {u v : Url} : U u v → credentials? u = credentials? v
  bare {u v : Url} : U u v → U (bare u) (bare v)
  sendable {u v : Url} : U u v → isSendable u = isSendable v
  resolve {u v : Url} : U u v → u.isWeb = true → ∀ location,
    Option.Rel U (Url.resolve? u location) (Url.resolve? v location)

/-- Nothing tells an address from itself. -/
lemma indistinct_eq : Indistinct Eq where
  refl _ := rfl
  server h := by rw [h]; exact ⟨rfl, rfl, rfl⟩
  credentials h := by rw [h]
  bare h := by rw [h]
  sendable h := by rw [h]
  resolve h _ _ := by rw [h]; exact rel_self (fun _ => rfl) _

/-- Addresses that differ in a word of a form, of the same size, are not told apart. -/
lemma indistinct_alike {a b : String} (ha : Url.IsFormWord a) (hb : Url.IsFormWord b)
    (hsize : a.utf8ByteSize = b.utf8ByteSize) : Indistinct (Url.Alike a b) where
  refl := Url.Alike.refl
  server h := by rw [h.rest]; exact ⟨rfl, rfl, rfl⟩
  credentials h := by rw [h.rest]; rfl
  bare h := ⟨by rw [h.rest]; rfl, h.tail⟩
  sendable {u v} h := by
    have hhost : v.host = u.host := by rw [h.rest]
    rw [isSendable, isSendable, h.text.utf8ByteSize_eq hsize, hhost]
  resolve h hweb location := Url.resolve?_alike ha hb h hweb location

/-- Addresses that are not told apart are both of the web, or neither is. -/
lemma Indistinct.isWeb {U : Url → Url → Prop} (hU : Indistinct U) {u v : Url} (h : U u v) :
    u.isWeb = v.isWeb := by
  rw [Url.isWeb, Url.isWeb, (hU.server h).1]

/-! ### Headers -/

section Headers

variable {a b : String} {hs hs' gs gs' : List (String × String)}

/-- Headers are the same as themselves. -/
lemma HeadersAlike.refl (hs : List (String × String)) : HeadersAlike a b hs hs :=
  List.forall₂_same.mpr fun _ _ => ⟨rfl, .inl rfl⟩

/-- Headers put behind headers are the same if both parts are. -/
lemma HeadersAlike.append (h : HeadersAlike a b hs hs') (h' : HeadersAlike a b gs gs') :
    HeadersAlike a b (hs ++ gs) (hs' ++ gs') := List.rel_append h h'

/-- A search among names comes out the same for headers that are the same but for a secret. -/
lemma HeadersAlike.any_name (h : HeadersAlike a b hs hs') (p : String → Bool) :
    hs.any (p ·.1) = hs'.any (p ·.1) := by
  induction h with
  | nil => rfl
  | cons hh _ ih => rw [List.any_cons, List.any_cons, hh.1, ih]

/-- A value is valid where both its parts are. -/
lemma isHeaderValue_append (x y : String) :
    isHeaderValue (x ++ y) = (isHeaderValue x && isHeaderValue y) := by
  rw [isHeaderValue, String.toList_append, List.all_append]
  rfl

/-- Where both secrets are valid, the values that hold them are valid alike. -/
lemma isHeaderValue_sameBut {x y : String} (ha : isHeaderValue a = true)
    (hb : isHeaderValue b = true) (h : SameBut a b x y) : isHeaderValue x = isHeaderValue y := by
  obtain rfl | ⟨before, after, rfl, rfl⟩ := h
  · rfl
  · simp only [isHeaderValue_append, ha, hb]

/-- Where both secrets are valid, headers that differ in them are valid alike. -/
lemma HeadersAlike.all_valid (ha : isHeaderValue a = true) (hb : isHeaderValue b = true)
    (h : HeadersAlike a b hs hs') :
    hs.all (isHeaderValue ·.2) = hs'.all (isHeaderValue ·.2) := by
  induction h with
  | nil => rfl
  | cons hh _ ih => rw [List.all_cons, List.all_cons, isHeaderValue_sameBut ha hb hh.2, ih]

end Headers

/-! ### Building -/

/-- Build a request of all its headers, for an address without user name. -/
def assemble (method : Method) (url : Url) (headers : List (String × String))
    (body : Option String) : Except Fault Request :=
  if !headers.all (isHeaderValue ·.2) then .error (.unbuildable none)
  else if !url.isWeb || !isSendable url then .error (.unbuildable (some url))
  else
    let accept := if headers.any (·.1 == "accept") then [] else [("accept", "*/*")]
    let typed := if body.isSome then [("content-type", "application/json")] else []
    .ok ⟨method, url, headers ++ typed ++ accept ++ [("user-agent", userAgent)], body⟩

/-- Name and password of an address become a header, ahead of the others. -/
lemma build_eq_assemble (method : Method) (url : Url) (headers : List (String × String))
    (body : Option String) :
    build method url headers body =
      match credentials? url with
      | some c => assemble method (bare url) (("authorization", c) :: headers) body
      | none => assemble method url headers body := by
  unfold build
  cases credentials? url with
  | none => rfl
  | some c => rfl

section Body

variable {method : Method} {url : Url} {headers : List (String × String)} {body : Option String}
  {r : Request}

/-- A request has the body that it was assembled from. -/
lemma body_of_assemble (h : assemble method url headers body = .ok r) : r.body = body := by
  unfold assemble at h
  split at h
  · cases h
  · split at h
    · cases h
    · cases h
      rfl

/-- A request carries the body that it is built with. -/
lemma body_of_build (h : build method url headers body = .ok r) : r.body = body := by
  rw [build_eq_assemble] at h
  split at h
  · exact body_of_assemble h
  · exact body_of_assemble h

end Body

section Building

variable {a b : String} {U : Url → Url → Prop} {u v : Url} {hs hs' : List (String × String)}

/-- Requests that are alike and go over the web. -/
def SentAlike (a b : String) (U : Url → Url → Prop) (r r' : Request) : Prop :=
  r.Alike a b U r' ∧ r.url.isWeb = true

/-- Requests that are assembled from like parts are alike, or fail alike. -/
lemma assemble_alike (hU : Indistinct U) (ha : isHeaderValue a = true)
    (hb : isHeaderValue b = true) (h : U u v) (hheaders : HeadersAlike a b hs hs')
    (method : Method) (body : Option String) :
    Likewise (Fault.Alike U) (SentAlike a b U) (assemble method u hs body)
      (assemble method v hs' body) := by
  unfold assemble
  rw [hheaders.all_valid ha hb, hheaders.any_name (· == "accept"), hU.isWeb h, hU.sendable h]
  split_ifs with hvalid hfit
  · exact .error (.unbuildable .none)
  · exact .error (.unbuildable (.some h))
  all_goals
    have hweb : v.isWeb = true := by
      by_contra hno
      exact hfit (by simp [hno])
    refine .ok ⟨⟨rfl, h, ?_, rfl⟩, (hU.isWeb h).trans hweb⟩
    exact ((hheaders.append (.refl _)).append (.refl _)).append (.refl _)

/-- The same is built, or refused, for addresses that are not told apart. -/
lemma build_alike (hU : Indistinct U) (ha : isHeaderValue a = true) (hb : isHeaderValue b = true)
    (h : U u v) (hheaders : HeadersAlike a b hs hs') (method : Method) (body : Option String) :
    Likewise (Fault.Alike U) (SentAlike a b U) (build method u hs body)
      (build method v hs' body) := by
  rw [build_eq_assemble, build_eq_assemble, hU.credentials h]
  cases credentials? v with
  | none => exact assemble_alike hU ha hb h hheaders method body
  | some c =>
      have hall : HeadersAlike a b (("authorization", c) :: hs) (("authorization", c) :: hs') :=
        .cons ⟨rfl, .inl rfl⟩ hheaders
      exact assemble_alike hU ha hb (hU.bare h) hall method body

end Building

/-! ### Sending -/

section Sending

variable {a b : String} {U : Url → Url → Prop} {u v : Url} {r r' : Request}

/-- A redirection leads from related addresses to related ones. -/
lemma target?_rel (hU : Indistinct U) (h : U u v) (hweb : u.isWeb = true) (answer : Response) :
    Option.Rel U (answer.target? u) (answer.target? v) := by
  unfold Response.target?
  split_ifs
  · cases answer.location with
    | none => exact .none
    | some location =>
        have hresolve := hU.resolve h hweb location
        simp only [Option.bind_some]
        generalize Url.resolve? u location = x at hresolve
        generalize Url.resolve? v location = y at hresolve
        cases hresolve with
        | none => exact .none
        | @some t t' ht =>
            rw [Option.filter_some, Option.filter_some, hU.sendable ht]
            split_ifs
            · exact .some ht
            · exact .none
  · exact .none

/-- Requests that are alike are so after a redirection. -/
lemma Request.Alike.redirected (hU : Indistinct U) (h : r.Alike a b U r') (status : Nat)
    {t t' : Url} (ht : U t t') :
    (r.redirected status t).Alike a b U (r'.redirected status t') := by
  obtain ⟨hscheme, hhost, hport⟩ := hU.server h.url
  obtain ⟨hscheme', hhost', hport'⟩ := hU.server ht
  unfold Request.redirected
  rw [hscheme, hhost, hport, hscheme', hhost', hport', h.method, h.body]
  refine ⟨rfl, ht, ?_, rfl⟩
  refine List.rel_filter ?_ h.headers
  intro x y hxy
  simp only [hxy.1]

/-- One request and its answer. -/
lemma attempt_agree {onward onward' : Duration → Response → Url → Act (Except Fault Response)}
    (hU : Indistinct U) (h : SentAlike a b U r r')
    (honward : ∀ left answer t t', U t t' →
      Act.Agree (Request.Alike a b U) (Likewise (Fault.Alike U) Eq) (onward left answer t)
        (onward' left answer t'))
    (left : Duration) :
    Act.Agree (Request.Alike a b U) (Likewise (Fault.Alike U) Eq) (attempt onward left r)
      (attempt onward' left r') := by
  unfold attempt
  refine (Act.agree_sendOnce h.1).bind ?_
  rintro outcome _ rfl
  cases outcome with
  | refused => exact Act.agree_pure (.error (.unsent h.1.url))
  | answered delay answer =>
      refine (Act.agree_pass _).bind ?_
      rintro _ _ -
      refine Act.Agree.ite (Act.agree_pure (.error (.late h.1.url))) ?_
      have htarget := target?_rel hU h.1.url h.2 answer
      generalize answer.target? r.url = x at htarget
      generalize answer.target? r'.url = y at htarget
      cases htarget with
      | none => exact Act.agree_pure (.ok rfl)
      | some ht => exact honward _ _ _ _ ht

/-- Requests that are alike come to the same response, over any number of redirections, or fail
alike. -/
lemma sendWithin_agree (hU : Indistinct U) (h : SentAlike a b U r r') (hops : ℕ)
    (left : Duration) :
    Act.Agree (Request.Alike a b U) (Likewise (Fault.Alike U) Eq) (sendWithin hops left r)
      (sendWithin hops left r') := by
  induction hops generalizing left r r' with
  | zero =>
      refine attempt_agree hU h ?_ left
      intro _ _ _ _ _
      exact Act.agree_pure (.error (.astray h.1.url))
  | succ hops ih =>
      refine attempt_agree hU h ?_ left
      intro left answer t t' ht
      rw [hU.isWeb ht]
      by_cases hweb : t'.isWeb = true
      · rw [hweb]
        exact ih ⟨h.1.redirected hU answer.status ht, (hU.isWeb ht).trans hweb⟩ _
      · rw [Bool.not_eq_true] at hweb
        rw [hweb]
        exact Act.agree_pure (.error (.unbuildable (.some ht)))

/-- **Requests that are alike, sent by twins, come to the same response or to faults that are
alike.** -/
lemma send_agree (hU : Indistinct U) (h : SentAlike a b U r r') (timeout : Duration) :
    Act.Agree (Request.Alike a b U) (Likewise (Fault.Alike U) Eq) (send timeout r)
      (send timeout r') := sendWithin_agree hU h _ _

/-- Sending a request shows nothing. -/
lemma send_unseen (timeout : Duration) (r : Request) :
    (send timeout r).Keeps Machine.Unseen := by
  have hsend : (send timeout r).Within .requesting :=
    @send_within .requesting (fun r o => ⟨r, o, rfl⟩) (fun _ => trivial) timeout r
  refine hsend.keeps fun m t ht => ?_
  have happend : (m.after t).visible = m.visible ++ (m.withJournal t.events).visible :=
    List.filter_append ..
  have hnone : (m.withJournal t.events).visible = [] := by
    refine List.filter_eq_nil_iff.mpr fun e he => ?_
    obtain ⟨request, outcome, rfl⟩ := ht.events e he
    exact Bool.false_ne_true
  unfold Machine.Unseen
  rw [happend, hnone, List.append_nil]

end Sending

end Http

end CodeReview
