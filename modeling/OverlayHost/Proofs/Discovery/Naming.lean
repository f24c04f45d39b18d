import OverlayHost.Proofs.Discovery.Requests
import OverlayHost.Proofs.Net.Uri
import OverlayHost.Resolver

/-!
# Which application a request names

The name of an application is put at the end of a text that is then read as a URL. What of the name reaches the request
is what stands before its first `#`, and a `?` or a slash in it ends the segment it should be. `registration_requests` says
for which names a request is for just this application, and which names share a request.
-/

set_option autoImplicit false

namespace OverlayHost.Discovery

open Net.Uri

variable {client : Client} {url name : String} {uri : Net.Uri}

/-- What reaches a request of a name: all before its first hash. -/
def untilHash (name : String) : String := String.ofList (beforeHash name.toList)

theorem toList_untilHash (name : String) : (untilHash name).toList = beforeHash name.toList := String.toList_ofList

namespace Client

/-! ## The base URL -/

theorem parseUrl_eq_ok_iff : parseUrl url = .ok uri ↔ ofString url = .ok uri := by
  unfold parseUrl
  cases ofString url <;> simp [Except.mapError]

theorem exists_reason {error : Error} (h : parseUrl url = .error error) :
    ∃ reason, error = .invalidUrl url reason := by
  unfold parseUrl at h
  cases hread : ofString url with
  | error cause =>
    rw [hread] at h
    cases h
    exact ⟨_, rfl⟩
  | ok uri =>
    rw [hread] at h
    cases h

theorem new_eq_ok (h : new url = .ok client) :
    client.baseUrl = trimSlashes url ∧ ∃ base, ofString client.baseUrl = .ok base ∧ base.authority.isSome := by
  unfold new at h
  cases hbase : parseUrl (trimSlashes url) with
  | error cause => simp [hbase, bind, Except.bind] at h
  | ok base =>
    simp only [hbase, bind, Except.bind, pure, Except.pure, throw, throwThe, MonadExceptOf.throw] at h
    split at h
    next hauthority =>
      cases h
      exact ⟨rfl, base, parseUrl_eq_ok_iff.mp hbase, hauthority⟩
    next => simp at h

theorem mem_trimSlashes {c : Char} (h : c ∈ (trimSlashes url).toList) : c ∈ url.toList := by
  rw [trimSlashes, String.toList_ofList, List.mem_reverse] at h
  exact List.mem_reverse.mp ((List.dropWhile_sublist _).mem h)

theorem getLast?_trimSlashes (url : String) : (trimSlashes url).toList.getLast? ≠ some '/' := by
  have hhead := List.head?_dropWhile_not (· = '/') url.toList.reverse
  rw [trimSlashes, String.toList_ofList, List.getLast?_reverse]
  intro hlast
  rw [hlast] at hhead
  simp at hhead

/-- What separates the base URL from the name. -/
def registrationPath : List Char := "/v1/registration/".toList

theorem registrationPath_eq : registrationPath = '/' :: 'v' :: "1/registration/".toList := rfl

theorem toList_registration (before name : String) :
    (before ++ "/v1/registration/" ++ name).toList = before.toList ++ (registrationPath ++ name.toList) := by
  have happend (a b c : String) : (a ++ b ++ c).toList = a.toList ++ (b.toList ++ c.toList) := by simp
  exact happend before _ name

/-- The scheme of the base URL, as it is written. -/
def schemeChars (client : Client) : List Char := client.baseUrl.toList.takeWhile isSchemeChar

/-- The base URL as requests show it, with a known scheme in lower case. -/
def shownUrl (client : Client) : String :=
  String.ofList (keptScheme client.schemeChars ++ client.baseUrl.toList.drop client.schemeChars.length)

theorem shownUrl_eq (h : client.schemeChars.map Char.toLower = client.schemeChars) : client.shownUrl = client.baseUrl := by
  have hkept : keptScheme client.schemeChars = client.schemeChars := by
    unfold keptScheme
    split
    · exact h
    · rfl
  have hbase : client.schemeChars ++ client.baseUrl.toList.drop client.schemeChars.length = client.baseUrl.toList :=
    List.prefix_iff_eq_append.mp (List.takeWhile_prefix _)
  rw [shownUrl, hkept, hbase, String.ofList_toList]

/-- The URI of the registration of an application, by its parts. -/
def place (client : Client) (name : String) : Net.Uri :=
  assemble client.schemeChars
    (client.baseUrl.toList.drop (client.schemeChars.length + 3) ++ registrationPath ++ name.toList)

/-- A base URL under which the URLs of registrations can be read. -/
structure Readable (client : Client) : Prop where
  head : client.baseUrl.toList.head? ≠ some '/'
  nonempty : client.baseUrl.toList ≠ []
  last : client.baseUrl.toList.getLast? ≠ some '/'
  query : '?' ∉ client.baseUrl.toList
  fragment : '#' ∉ client.baseUrl.toList

theorem readable_of_new (h : new url = .ok client) (hquery : '?' ∉ url.toList) (hfragment : '#' ∉ url.toList) :
    client.Readable := by
  obtain ⟨htrim, base, hbase, hauthority⟩ := new_eq_ok h
  obtain ⟨hempty, hhead⟩ := head?_of_authority hbase hauthority
  refine ⟨hhead, hempty, ?_, ?_, ?_⟩
  · rw [htrim]
    exact getLast?_trimSlashes url
  · rw [htrim]
    exact fun h => hquery (mem_trimSlashes h)
  · rw [htrim]
    exact fun h => hfragment (mem_trimSlashes h)

/-- The URL of a registration has a scheme just if the base URL has one. -/
theorem exists_more (hlast : client.baseUrl.toList.getLast? ≠ some '/') {name after : List Char}
    (h : client.baseUrl.toList ++ (registrationPath ++ name) = client.schemeChars ++ ':' :: '/' :: '/' :: after) :
    ∃ more, client.baseUrl.toList = client.schemeChars ++ ':' :: '/' :: '/' :: more ∧
      after = more ++ (registrationPath ++ name) := by
  have hbase : client.schemeChars ++ client.baseUrl.toList.dropWhile isSchemeChar = client.baseUrl.toList :=
    List.takeWhile_append_dropWhile
  rw [← hbase] at hlast h
  rw [List.append_assoc, List.append_cancel_left_eq, registrationPath_eq] at h
  -- the two slashes cannot stand across the end of the base URL: it has none there, and only one comes after it
  rcases hdrop : client.baseUrl.toList.dropWhile isSchemeChar with _ | ⟨a, _ | ⟨b, _ | ⟨c, more⟩⟩⟩
  · simp [hdrop] at h
  · simp [hdrop] at h
  · simp_all
  · rw [hdrop] at h hbase
    obtain ⟨rfl, rfl, rfl, hafter⟩ : a = ':' ∧ b = '/' ∧ c = '/' ∧ more ++ (registrationPath ++ name) = after := by
      simpa [registrationPath_eq] using h
    exact ⟨more, hbase.symm, hafter.symm⟩

variable {more : List Char}

theorem Readable.notMem (h : client.Readable)
    (hbase : client.baseUrl.toList = client.schemeChars ++ ':' :: '/' :: '/' :: more) : '?' ∉ more ∧ '#' ∉ more := by
  have hquery := h.query
  have hfragment := h.fragment
  rw [hbase] at hquery hfragment
  simp_all

theorem place_eq (h : client.baseUrl.toList = client.schemeChars ++ ':' :: '/' :: '/' :: more)
    (name : String) : client.place name = assemble client.schemeChars (more ++ (registrationPath ++ name.toList)) := by
  have hmore : client.baseUrl.toList.drop (client.schemeChars.length + 3) = more := by
    rw [h, ← List.drop_drop]
    simp
  rw [place, hmore, List.append_assoc]

theorem afterAuthority_registration (more name : List Char) :
    afterAuthority (more ++ (registrationPath ++ name)) = afterAuthority more ++ (registrationPath ++ name) := by
  rw [registrationPath_eq]
  exact dropWhile_append_cons (by decide) _ _

theorem head?_afterAuthority (hquery : '?' ∉ more) (hfragment : '#' ∉ more) (name : List Char) :
    (afterAuthority (more ++ (registrationPath ++ name))).head? = some '/' := by
  rw [afterAuthority_registration]
  have hhead := List.head?_dropWhile_not (fun c => !endsAuthority c) more
  cases hrest : afterAuthority more with
  | nil => simp [registrationPath_eq]
  | cons c rest =>
    -- what ends an authority is a slash, a question mark or a hash
    have hc : c ∈ more := mem_of_mem_afterAuthority (by simp [hrest])
    have hends : endsAuthority c := by
      rw [afterAuthority] at hrest
      simpa [hrest] using hhead
    have hne := ne_of_mem_of_not_mem hc hquery
    have hne' := ne_of_mem_of_not_mem hc hfragment
    simp_all [endsAuthority]

theorem registrationUri_eq_ok (h : client.Readable) (huri : client.registrationUri name = .ok uri) :
    (∃ more, client.baseUrl.toList = client.schemeChars ++ ':' :: '/' :: '/' :: more) ∧ uri = client.place name := by
  have hread : ofString (client.baseUrl ++ "/v1/registration/" ++ name) = .ok uri := parseUrl_eq_ok_iff.mp huri
  have htext := toList_registration client.baseUrl name
  have hscheme : (client.baseUrl.toList ++ (registrationPath ++ name.toList)).takeWhile isSchemeChar =
      client.schemeChars := by
    rw [registrationPath_eq]
    exact takeWhile_append_cons (by decide) _ _
  have hslash : '/' ∈ (client.baseUrl ++ "/v1/registration/" ++ name).toList := by
    simp [htext, registrationPath_eq]
  have hhead : (client.baseUrl ++ "/v1/registration/" ++ name).toList.head? ≠ some '/' := by
    rw [htext, List.head?_append_of_ne_nil _ h.nonempty]
    exact h.head
  obtain ⟨after, hafter, hplace⟩ := ofString_eq_ok hread hslash hhead
  rw [htext, hscheme] at hafter hplace
  obtain ⟨more, hbase, rfl⟩ := exists_more h.last hafter
  obtain ⟨hquery, hfragment⟩ := h.notMem hbase
  have hhead := head?_afterAuthority hquery hfragment name.toList
  exact ⟨⟨more, hbase⟩, by rw [hplace hhead, place_eq hbase]⟩

/-! ## The request of a name -/

section Place

variable (h : client.Readable) (hbase : client.baseUrl.toList = client.schemeChars ++ ':' :: '/' :: '/' :: more)

include h hbase

theorem render_place (name : String) :
    (client.place name).render = client.shownUrl ++ "/v1/registration/" ++ untilHash name := by
  have hshown : client.shownUrl.toList = keptScheme client.schemeChars ++ ':' :: '/' :: '/' :: more := by
    rw [shownUrl, String.toList_ofList, hbase, List.drop_left]
  rw [← String.toList_inj, toList_registration, hshown, place_eq hbase, render_assemble,
    beforeHash_append (h.notMem hbase).2, beforeHash_append (by decide), String.toList_ofList, toList_untilHash]
  simp

theorem place_parts (name : String) :
    client.place name =
      { scheme := some (String.ofList (keptScheme client.schemeChars))
        authority := some (String.ofList (authorityOf more))
        path := String.ofList (afterAuthority more ++ (registrationPath ++ pathOf name.toList))
        query := (queryOf name.toList).map String.ofList } := by
  have hquery : '?' ∉ afterAuthority more := fun hc => (h.notMem hbase).1 (mem_of_mem_afterAuthority hc)
  have hfragment : '#' ∉ afterAuthority more := fun hc => (h.notMem hbase).2 (mem_of_mem_afterAuthority hc)
  have hauthority : authorityOf (more ++ (registrationPath ++ name.toList)) = authorityOf more := by
    rw [registrationPath_eq]
    exact takeWhile_append_cons (by decide) _ _
  rw [place_eq hbase, assemble, hauthority, afterAuthority_registration, pathOf_append hquery hfragment,
    pathOf_append (by decide) (by decide), queryOf_append hquery hfragment, queryOf_append (by decide) (by decide)]

/-- A URI asks for the registration of an application, and for nothing else, at the base URL of a client. -/
structure AsksFor (client : Client) (name : String) (uri : Net.Uri) : Prop where
  text : uri.render = client.shownUrl ++ "/v1/registration/" ++ name
  path : ∃ before, uri.path = before ++ "/v1/registration/" ++ name
  segment : '/' ∉ name.toList
  query : uri.query = none

theorem asksFor_place_iff (name : String) :
    client.AsksFor name (client.place name) ↔ '/' ∉ name.toList ∧ '?' ∉ name.toList ∧ '#' ∉ name.toList := by
  have hrender := render_place h hbase name
  have hparts := place_parts h hbase name
  constructor
  · intro hasks
    have hname : (untilHash name).toList = name.toList := by
      rw [hasks.text, String.append_right_inj] at hrender
      rw [← hrender]
    rw [toList_untilHash, beforeHash_eq_self_iff] at hname
    have hquery := hasks.query
    rw [hparts, Option.map_eq_none_iff, queryOf_eq_none_iff hname] at hquery
    exact ⟨hasks.segment, hquery, hname⟩
  · rintro ⟨hsegment, hquery, hfragment⟩
    have hname : untilHash name = name := by
      rw [← String.toList_inj, toList_untilHash, beforeHash_eq_self_iff.mpr hfragment]
    have hpath : pathOf name.toList = name.toList := by
      simpa [pathOf, beforeHash] using pathOf_append hquery hfragment []
    refine ⟨by rw [hrender, hname], ⟨String.ofList (afterAuthority more), ?_⟩, hsegment, ?_⟩
    · have hbefore : (String.ofList (afterAuthority more)).toList = afterAuthority more := String.toList_ofList
      have htext := toList_registration (String.ofList (afterAuthority more)) name
      rw [hbefore] at htext
      rw [hparts, hpath, ← htext, String.ofList_toList]
    · rw [hparts, Option.map_eq_none_iff]
      exact (queryOf_eq_none_iff hfragment).mpr hquery

theorem place_eq_iff (name other : String) :
    client.place other = client.place name ↔ untilHash other = untilHash name := by
  constructor
  · intro hsame
    have hrender := render_place h hbase other
    rw [hsame, render_place h hbase name, String.append_right_inj] at hrender
    exact hrender.symm
  · intro hsame
    have hkept : beforeHash other.toList = beforeHash name.toList := by
      rw [← toList_untilHash, hsame, toList_untilHash]
    simp only [place_parts h hbase, pathOf, queryOf, hkept]

end Place

end Client

/-- What the requests of a lookup ask for, below a base URL without a query and a fragment: for just this application if
its name holds no slash, no question mark and no hash, and for the same as those of another name if the two agree before
their first hash. -/
theorem registration_requests (hclient : Client.new url = .ok client) (hquery : '?' ∉ url.toList)
    (hfragment : '#' ∉ url.toList) (setting : Setting) (name : String) (now : Duration) :
    let course := client.course setting name now
    let text := client.baseUrl ++ "/v1/registration/" ++ name
    client.baseUrl = Client.trimSlashes url ∧
    (client.schemeChars.map Char.toLower = client.schemeChars → client.shownUrl = client.baseUrl) ∧
    ((∃ reason, client.registrationUri name = .error (.invalidUrl text reason) ∧
      course = ⟨.error (.invalidUrl text reason), [], now⟩) ∨
    ∃ uri, client.registrationUri name = .ok uri ∧ (∀ request ∈ course.requests, request.uri = uri) ∧
      uri.render = client.shownUrl ++ "/v1/registration/" ++ untilHash name ∧
      (client.AsksFor name uri ↔ '/' ∉ name.toList ∧ '?' ∉ name.toList ∧ '#' ∉ name.toList) ∧
      ∀ other otherUri, client.registrationUri other = .ok otherUri →
        (otherUri = uri ↔ untilHash other = untilHash name)) := by
  intro course text
  refine ⟨(Client.new_eq_ok hclient).1, Client.shownUrl_eq, ?_⟩
  have hreadable := Client.readable_of_new hclient hquery hfragment
  cases huri : client.registrationUri name with
  | error error =>
    left
    obtain ⟨reason, rfl⟩ := Client.exists_reason huri
    exact ⟨reason, rfl, course_of_invalid huri setting now⟩
  | ok uri =>
    right
    obtain ⟨⟨more, hbase⟩, rfl⟩ := Client.registrationUri_eq_ok hreadable huri
    refine ⟨_, rfl, ?_, Client.render_place hreadable hbase name,
      Client.asksFor_place_iff hreadable hbase name, ?_⟩
    · exact fun request hrequest => uri_of_mem_requests huri hrequest
    · intro other otherUri hother
      obtain ⟨-, rfl⟩ := Client.registrationUri_eq_ok hreadable hother
      exact Client.place_eq_iff hreadable hbase name other

/-- A name with a hash and the name before it. -/
theorem registration_requests_hash :
    let url := "https://sd/"
    let client : Client := ⟨"https://sd"⟩
    let setting : Setting :=
      { transport := fun _ _ => none, jitter := fun _ => ⟨50, by decide⟩, shuffle := .ascending, shutdown := none,
        shutdownFirst := fun _ => false }
    Client.new url = .ok client ∧ '?' ∉ url.toList ∧ '#' ∉ url.toList ∧
      ∃ uri, client.registrationUri "a.#." = .ok uri ∧ client.registrationUri "a." = .ok uri ∧
        (∀ request ∈ (client.course setting "a.#." .zero).requests, request.uri = uri) ∧
        uri.render = client.baseUrl ++ "/v1/registration/" ++ untilHash "a.#." ∧ ¬ client.AsksFor "a.#." uri := by
  intro url client setting
  have hclient : Client.new url = .ok client := by
    unfold url client
    cbv
  have huri : client.registrationUri "a.#." =
      .ok ⟨some "https", some "sd", "/v1/registration/a.", none⟩ := by
    unfold client
    cbv
  have hother : client.registrationUri "a." =
      .ok ⟨some "https", some "sd", "/v1/registration/a.", none⟩ := by
    unfold client
    cbv
  have hquery : '?' ∉ url.toList := by decide
  have hfragment : '#' ∉ url.toList := by decide
  obtain ⟨-, hshown, ⟨reason, hinvalid, -⟩ | ⟨uri, hread, heach, htext, hasks, hsame⟩⟩ :=
    registration_requests hclient hquery hfragment setting "a.#." .zero
  · simp [huri] at hinvalid
  · rw [huri] at hread
    cases hread
    refine ⟨hclient, hquery, hfragment, _, huri, hother, heach, ?_, ?_⟩
    · rw [htext, hshown (by decide)]
    · rw [hasks]
      simp

/-- A hostname with a hash is answered with the backends of another one. -/
theorem hostnames_share_request :
    let url := "https://sd/"
    let client : Client := ⟨"https://sd"⟩
    let body := "\x7b\"Hosts\":[\x7b\"ip_address\":\"1.1.1.1\"\x7d]\x7d".toUTF8.toList
    let setting : Setting :=
      { transport := fun _ _ => some (.zero, .response 200 body), jitter := fun _ => ⟨50, by decide⟩,
        shuffle := .ascending, shutdown := none, shutdownFirst := fun _ => false }
    let resolver := Resolver.new ⟨⟨0x7f800000⟩, 9, by decide⟩ "apps.internal"
    let backends : Backends (List Request) :=
      { serviceDiscovery := fun name asked =>
          let course := client.course setting name .zero
          (course.result, asked ++ course.requests)
        controlPlane := none }
    Client.new url = .ok client ∧ Hostname.canonical "a" = "a." ∧ Hostname.canonical "a.#" = "a.#." ∧
      resolver.resolve backends "a.#" [] = resolver.resolve backends "a" [] ∧
      (resolver.resolve backends "a.#" []).2.map (·.uri.render) =
        ["https://sd/v1/registration/a."] := by
  intro url client body setting resolver backends
  let uri : Net.Uri := ⟨some "https", some "sd", "/v1/registration/a.", none⟩
  have hcourse (name : String) (huri : client.registrationUri name = .ok uri) :
      client.course setting name .zero = ⟨.ok [⟨0x01010101⟩], [⟨uri, .zero, .zero⟩], .zero⟩ := by
    rw [Client.course, huri]
    unfold setting body
    cbv
  have hresolve (hostname : String) (huri : client.registrationUri (Hostname.canonical hostname) = .ok uri)
      (hname : Hostname.canonical hostname ≠ ".")
      (hunder : Hostname.isUnder (Hostname.canonicalSuffix "apps.internal") (Hostname.canonical hostname) = false) :
      resolver.resolve backends hostname [] = (.ok (.backends [⟨0x01010101⟩]), [⟨uri, .zero, .zero⟩]) := by
    unfold Resolver.resolve
    simp [backends, resolver, Resolver.new, Resolver.route, hname, hunder, hcourse _ huri, Except.map, Except.mapError]
  have hplain := hresolve "a" (by unfold client uri; cbv) (by cbv) (by cbv)
  have hhash := hresolve "a.#" (by unfold client uri; cbv) (by cbv) (by cbv)
  refine ⟨?_, ?_, ?_, hhash.trans hplain.symm, ?_⟩
  · unfold url client
    cbv
  · cbv
  · cbv
  · rw [hhash]
    unfold uri
    cbv

end OverlayHost.Discovery
