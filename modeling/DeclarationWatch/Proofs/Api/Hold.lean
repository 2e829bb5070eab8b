import DeclarationWatch.Api.Route
import DeclarationWatch.Movement.Service
import DeclarationWatch.Proofs.Net.Url

namespace DeclarationWatch.Api.Route

theorem splitOnP_slash {s : List Char} (hs : '/' ∉ s) (rest : List Char) :
    (s ++ '/' :: rest).splitOnP (· == '/') = s :: rest.splitOnP (· == '/') := by
  refine List.splitOnP_append_cons_of_forall_mem (fun c hc => ?_) '/' rfl rest
  have hne : c ≠ '/' := fun heq => hs (heq ▸ hc)
  simpa using hne

-- A path with a parameter between two slashes.
theorem segments_hold {segment : List Char} (h : '/' ∉ segment) :
    segments ("/gmrs/".toList ++ segment ++ "/hold".toList) =
      ["", "gmrs", String.ofList segment, "hold"] := by
  have hpath : "/gmrs/".toList ++ segment ++ "/hold".toList =
      [] ++ '/' :: ("gmrs".toList ++ '/' :: (segment ++ '/' :: "hold".toList)) := by
    have hfront : "/gmrs/".toList = '/' :: ("gmrs".toList ++ ['/']) := by simp
    have hback : "/hold".toList = '/' :: "hold".toList := by simp
    rw [hfront, hback]
    simp only [List.cons_append, List.append_assoc, List.nil_append]
  have hlast : "hold".toList.splitOnP (· == '/') = ["hold".toList] :=
    List.splitOnP_eq_singleton (by simp)
  rw [segments, hpath, splitOnP_slash (by simp), splitOnP_slash (by simp), splitOnP_slash h, hlast]
  simp

theorem pathOf_eq {path : List Char} (hroot : path.head? = some '/')
    (hplain : ∀ c ∈ path, c ≠ '?' ∧ c ≠ '#') : pathOf path = path := by
  have hall : ∀ c ∈ path, (c != '?' && c != '#') = true := by
    intro c hc
    simp [hplain c hc]
  have hsent : (path ++ []).takeWhile (fun c => c != '?' && c != '#') = path ++ [] :=
    List.takeWhile_append_of_pos hall
  rw [List.append_nil] at hsent
  unfold pathOf
  rw [hsent]
  cases path with
  | nil => cases hroot
  | cons c rest =>
      cases hroot
      rfl

-- Every text but the empty one can stand in a path.
theorem exists_hold {id : String} (h : id ≠ "") :
    ∃ segment : List Char,
      find true "PUT" (pathOf ("/gmrs/".toList ++ segment ++ "/hold".toList)) =
        .found (.hold segment) ∧ parameter? segment = some id := by
  let segment := Net.Percent.encode (fun _ => true) id.toList
  have hescape : ∀ c ∈ segment, Net.Percent.isEscapeChar c = true := by
    intro c hc
    rcases Net.Percent.mem_of_mem_encode hc with ⟨-, hnone⟩ | hescape
    · cases hnone
    · exact hescape
  have hne : String.ofList segment ≠ "" := by
    intro hempty
    have hdecoded := Net.Percent.decode_encode_all id.toList
    have hnil : segment = [] := by simpa using congrArg String.toList hempty
    rw [show Net.Percent.encode (fun _ => true) id.toList = [] from hnil] at hdecoded
    exact h (String.toList_inj.mp (Text.Utf8.encode_injective hdecoded.symm))
  have hsent : pathOf ("/gmrs/".toList ++ segment ++ "/hold".toList) =
      "/gmrs/".toList ++ segment ++ "/hold".toList := by
    have hfront : "/gmrs/".toList = '/' :: "gmrs/".toList := by simp
    refine pathOf_eq ?_ fun c hc => ?_
    · rw [hfront]
      rfl
    · rcases List.mem_append.mp hc with hc | hc
      · rcases List.mem_append.mp hc with hc | hc
        · exact Net.Url.forall_ne_of_all (by decide +kernel) c hc
        · have hin := hescape c hc
          refine ⟨?_, ?_⟩ <;>
            rintro rfl <;> cases hin
      · exact Net.Url.forall_ne_of_all (by decide +kernel) c hc
  have hslash : '/' ∉ segment := fun hmem => by cases hescape '/' hmem
  refine ⟨segment, ?_, ?_⟩
  · rw [hsent, find, resource?, segments_hold hslash]
    simp [hne, isOpen, action?]
  · rw [parameter?, Net.Percent.decode_encode_all, Text.Utf8.decode?_encode, Option.map_some,
      String.ofList_toList]

end DeclarationWatch.Api.Route

namespace DeclarationWatch.Movement.Service

open Net (Request Url)

-- The path is that of the service and one segment more, which says the id, and nothing comes after.
def OnResource (base : Url) (id : String) (request : Request) : Prop :=
  ∃ segment : List Char, (∀ c ∈ segment, c ≠ '/' ∧ c ≠ '?' ∧ c ≠ '#') ∧
    request.target = base.path ++ "customs/goods-movement-system-search/defra-holds/" ++
      String.ofList segment ∧
    Net.Percent.decode segment = Text.utf8 id

-- The base address without the slashes at its end.
def stem (service : Service) : List Char :=
  (service.baseUrl.toList.reverse.dropWhile (· == '/')).reverse

variable {service : Service} {base : Url}

theorem address_eq (service : Service) (path : String) :
    service.address path = String.ofList (service.stem ++ '/' :: path.toList) := by
  rw [← String.toList_inj]
  simp only [address, String.toList_append, String.toList_ofList, List.append_assoc]
  rfl

theorem mem_of_mem_stem {c : Char} (h : c ∈ service.stem) : c ∈ service.baseUrl.toList :=
  List.mem_reverse.mp ((List.dropWhile_sublist _).subset (List.mem_reverse.mp h))

-- The segments that lead from the service to its holds.
def holdSegments : List (List Char) :=
  ["customs".toList, "goods-movement-system-search".toList, "defra-holds".toList]

def holdDirectory : List Char := "customs/goods-movement-system-search/defra-holds".toList

-- The directory of the holds, checked in one go.
theorem holdDirectory_cases :
    Net.Path.splitSegments (Url.isSlash true) holdDirectory = holdSegments ∧
      Net.Path.render holdSegments = '/' :: holdDirectory ∧
      holdDirectory.filter Url.isSolid = holdDirectory ∧
      (holdDirectory.all fun c => c != '?' && c != '#') = true ∧
      "customs/goods-movement-system-search/defra-holds/".toList = holdDirectory ++ ['/'] := by
  decide +kernel

theorem splitSegments_holdDirectory :
    Net.Path.splitSegments (Url.isSlash true) holdDirectory = holdSegments :=
  holdDirectory_cases.1

theorem descend_holdSegments (place : List (List Char)) :
    Net.Path.descend place holdSegments = holdSegments.reverse ++ place :=
  Net.Path.descend_of_forall (by decide +kernel) place

theorem render_holdSegments (place : List (List Char)) :
    Net.Path.render (holdSegments.reverse ++ place).reverse =
      Net.Path.render place.reverse ++ '/' :: holdDirectory := by
  rw [List.reverse_append, List.reverse_reverse, ← holdDirectory_cases.2.1]
  exact List.flatMap_append

theorem toList_holdFront : "customs/goods-movement-system-search/defra-holds/".toList =
    holdDirectory ++ ['/'] := holdDirectory_cases.2.2.2.2

theorem toList_holdPath (id : String) :
    (holdPath id).toList = holdDirectory ++ '/' :: id.toList := by
  unfold holdPath
  rw [String.toList_append, toList_holdFront, List.append_assoc, List.singleton_append]

theorem trimmed_holdPath (id : String) :
    Url.trimmed (holdPath id).toList = holdDirectory ++ '/' :: Url.trimmed id.toList := by
  have hsolid : holdDirectory.filter Url.isSolid = holdDirectory := holdDirectory_cases.2.2.1
  rw [toList_holdPath, Url.trimmed_append_cons rfl, List.append_assoc, hsolid]
  rfl

-- All hold requests of a service. The id decides over the target and over nothing else.
theorem exists_holdRequest? (hbase : Url.ofText? (service.address "") = some base)
    (hfetchable : base.isFetchable = true)
    (hplain : ∀ c ∈ service.baseUrl.toList, c ≠ '?' ∧ c ≠ '#') :
    ∃ (place : List (List Char)) (host : Net.Host) (portNumber : Nat), base.host = some host ∧
      base.portNumber.or (Url.defaultPortNumber? base.scheme) = some portNumber ∧
      base.path.toList ++ holdDirectory = Net.Path.render place.reverse ∧
      ∀ id on, service.holdRequest? id on = some
        { method := "PUT", host, portNumber,
          target := (base.under place (Url.trimmed id.toList)).target,
          authorization := Net.userField? base, contentType := Net.jsonType,
          body := (Json.object [("hold", .bool on)]).text } := by
  have hstem : ∀ c ∈ service.stem, c ≠ '?' ∧ c ≠ '#' := fun c hc => hplain c (mem_of_mem_stem hc)
  rw [address_eq] at hbase
  obtain ⟨place, hplace⟩ := Url.exists_ofText?_append hstem hbase hfetchable
  have hroot : base.path.toList = Net.Path.render place.reverse ++ ['/'] := by
    have hsame : base = base.under place [] := Option.some.inj (hbase.symm.trans (hplace []))
    rw [hsame]
    simp only [Url.under, String.toList_ofList]
    rw [Url.splitQuery_of_forall (by simp), Net.Path.splitSegments_of_forall (by simp),
      Net.Path.walk_of_landed ⟨rfl, rfl⟩, Net.Path.render_reverse_cons]
    rfl
  have haddress : ∀ id, Url.ofText? (service.address (holdPath id)) =
      some (base.under (holdSegments.reverse ++ place) (Url.trimmed id.toList)) := by
    intro id
    have hdirectory : ∀ c ∈ holdDirectory, c ≠ '?' ∧ c ≠ '#' :=
      Url.forall_ne_of_all holdDirectory_cases.2.2.2.1
    rw [address_eq, hplace, trimmed_holdPath, Url.under_append _ _ hdirectory,
      splitSegments_holdDirectory, descend_holdSegments]
  obtain ⟨host, portNumber, hhost, hport⟩ := Url.exists_host_of_isFetchable hfetchable
  refine ⟨holdSegments.reverse ++ place, host, portNumber, hhost, hport, ?_, fun id on => ?_⟩
  · rw [hroot, render_holdSegments, List.append_assoc, List.singleton_append]
  · simp [holdRequest?, Net.request?, haddress, hhost, hport, hfetchable]

-- The targets of hold requests, from the root of the service.
theorem holdTarget_eq {place : List (List Char)}
    (hplace : base.path.toList ++ holdDirectory = Net.Path.render place.reverse)
    (segment : List Char) :
    base.path ++ "customs/goods-movement-system-search/defra-holds/" ++ String.ofList segment =
      String.ofList (Net.Path.render place.reverse ++ '/' :: segment) := by
  rw [← String.toList_inj, String.toList_append, String.toList_append, toList_holdFront,
    String.toList_ofList, String.toList_ofList, ← hplace]
  simp only [List.append_assoc, List.singleton_append]

theorem onResource_iff {place : List (List Char)} {id : String} {request : Request}
    (hplace : base.path.toList ++ holdDirectory = Net.Path.render place.reverse)
    (htarget : request.target = (base.under place (Url.trimmed id.toList)).target) :
    OnResource base id request ↔ Url.isSegmentText id.toList = true := by
  rw [← Url.under_target_iff base place, OnResource, htarget]
  simp only [holdTarget_eq hplace]
  rfl

-- One target stands for one id.
theorem OnResource.unique {id other : String} {first second : Request}
    (h : OnResource base id first) (hother : OnResource base other second)
    (hsame : first.target = second.target) : id = other := by
  obtain ⟨segment, -, htarget, hdecode⟩ := h
  obtain ⟨another, -, htarget', hdecode'⟩ := hother
  rw [htarget, htarget', ← String.toList_inj] at hsame
  simp only [String.toList_append, String.toList_ofList, List.append_cancel_left_eq] at hsame
  rw [hsame, hdecode'] at hdecode
  exact (String.toList_inj.mp (Text.Utf8.encode_injective hdecode)).symm

-- What is sent in the end differs only in the fields that credentials need.
theorem authorized?_eq_some {secret : String} {request sent : Request}
    (h : authorized? secret (some request) = some sent) :
    sent = { request with accept := sent.accept, authorization := sent.authorization } := by
  simp only [authorized?, Option.bind_eq_bind, Option.bind_some, Option.bind_eq_some_iff,
    Option.some_inj] at h
  obtain ⟨field, -, rfl⟩ := h
  rfl

-- The hold requests of a service whose base address is a page without query and fragment. There is a
-- request for every id, to the host of the service. It goes to a resource of the id's own, below the
-- holds of the service and with nothing behind it, if the id is one that a path takes as it is, and
-- for no other id. Such ids do not share a target. Every id but the empty one can come from the path
-- of a request.
theorem hold_onResource_iff (service : Service) (base : Url)
    (hbase : Url.ofText? (service.address "") = some base) (hfetchable : base.isFetchable = true)
    (hplain : ∀ c ∈ service.baseUrl.toList, c ≠ '?' ∧ c ≠ '#') :
    (∀ id on, ∃ request, service.holdRequest? id on = some request ∧ request.method = "PUT" ∧
      base.host = some request.host ∧
      base.portNumber.or (Url.defaultPortNumber? base.scheme) = some request.portNumber ∧
      (OnResource base id request ↔ Url.isSegmentText id.toList = true) ∧
      ∀ secret sent, authorized? secret (service.request? (.hold id on)) = some sent →
        sent = { request with accept := sent.accept, authorization := sent.authorization }) ∧
    (∀ id other on off first second, Url.isSegmentText id.toList = true →
      Url.isSegmentText other.toList = true → service.holdRequest? id on = some first →
      service.holdRequest? other off = some second → first.target = second.target → id = other) ∧
    ∀ id, id ≠ "" → ∃ segment : List Char,
      Api.Route.find true "PUT"
          (Api.Route.pathOf ("/gmrs/".toList ++ segment ++ "/hold".toList)) =
        .found (.hold segment) ∧
      Api.Route.parameter? segment = some id := by
  obtain ⟨place, host, portNumber, hhost, hport, hplace, hrequest⟩ :=
    exists_holdRequest? hbase hfetchable hplain
  refine ⟨fun id on => ?stays, ?apart, fun id hne => Api.Route.exists_hold hne⟩
  case stays =>
    refine ⟨_, hrequest id on, rfl, hhost, hport, onResource_iff hplace rfl, ?_⟩
    intro secret sent hsent
    have hgiven := hrequest id on
    rw [request?, hgiven] at hsent
    exact authorized?_eq_some hsent
  case apart =>
    intro id other on off first second hid hother hfirst hsecond hsame
    rw [hrequest, Option.some_inj] at hfirst hsecond
    subst hfirst hsecond
    exact ((onResource_iff hplace rfl).mpr hid).unique ((onResource_iff hplace rfl).mpr hother) hsame

-- A blank and a letter beyond ASCII stay in their segment. A slash does not.
theorem hold_onResource_blank :
    let service : Service := ⟨"http://127.0.0.1:18080/gvms/", "id", "secret"⟩
    ∃ base, Url.ofText? (service.address "") = some base ∧ base.isFetchable = true ∧
      (∃ request, service.holdRequest? "GMR É" true = some request ∧
        OnResource base "GMR É" request) ∧
      ∃ request, service.holdRequest? "GMR/1" true = some request ∧
        ¬OnResource base "GMR/1" request := by
  intro service
  let base : Url := ⟨"http", none, some (.ipv4 0x7F000001), some 18080, "/gvms/", none⟩
  have hbase : Url.ofText? (service.address "") = some base := by decide +kernel
  have hplain : ∀ c ∈ service.baseUrl.toList, c ≠ '?' ∧ c ≠ '#' :=
    Url.forall_ne_of_all (by decide +kernel)
  obtain ⟨hstays, -, -⟩ := hold_onResource_iff service base hbase rfl hplain
  refine ⟨base, hbase, rfl, ?_, ?_⟩
  · obtain ⟨request, hrequest, -, -, -, hstays, -⟩ := hstays "GMR É" true
    exact ⟨request, hrequest, hstays.mpr (by decide +kernel)⟩
  · obtain ⟨request, hrequest, -, -, -, hstays, -⟩ := hstays "GMR/1" true
    exact ⟨request, hrequest, fun hon => absurd (hstays.mp hon) (by decide +kernel)⟩

-- Two dots take a hold out of the holds.
theorem not_forall_hold_onResource :
    ¬∀ (service : Service) (base : Url), Url.ofText? (service.address "") = some base →
      base.isFetchable = true → (∀ c ∈ service.baseUrl.toList, c ≠ '?' ∧ c ≠ '#') →
      ∀ id on request, service.holdRequest? id on = some request → OnResource base id request := by
  intro h
  let service : Service := ⟨"http://127.0.0.1:18080", "id", "secret"⟩
  let base : Url := ⟨"http", none, some (.ipv4 0x7F000001), some 18080, "/", none⟩
  have hbase : Url.ofText? (service.address "") = some base := by decide +kernel
  have hplain : ∀ c ∈ service.baseUrl.toList, c ≠ '?' ∧ c ≠ '#' :=
    Url.forall_ne_of_all (by decide +kernel)
  obtain ⟨place, host, portNumber, -, -, hplace, hrequest⟩ := exists_holdRequest? hbase rfl hplain
  have hon := h service base hbase rfl hplain ".." true _ (hrequest ".." true)
  exact absurd ((onResource_iff hplace rfl).mp hon) (by decide +kernel)

end DeclarationWatch.Movement.Service
