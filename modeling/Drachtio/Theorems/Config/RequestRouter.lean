import Drachtio.Config.RequestRouter
import Drachtio.Theorems.Config.CommandLine

/-! Which route serves a method. What is given when the server is started serves all methods for good, and the
    environment comes before the options; without it the first valid file with a handler does, and no other file that is
    read later. -/

namespace Drachtio.Config

open Machine (Meets run)
open Sip (Text)

/-! ### The table of a file -/

theorem toUpper_toUpper (c : Char) : c.toUpper.toUpper = c.toUpper := by
  by_cases hlower : 'a'.val ≤ c.val ∧ c.val ≤ 'z'.val
  · have hval : c.toUpper.val = c.val + ('A'.val - 'a'.val) := by
      delta Char.toUpper
      rw [dif_pos hlower]
    have hupper : ¬('a'.val ≤ c.toUpper.val ∧ c.toUpper.val ≤ 'z'.val) := by
      rw [hval]
      simp only [UInt32.le_iff_toNat_le] at hlower ⊢
      simp at hlower ⊢
      omega
    exact dif_neg hupper
  · have hself : c.toUpper = c := dif_neg hlower
    rw [hself, hself]

theorem upper_upper (s : Text) : upper (upper s) = upper s := by
  unfold upper
  rw [List.map_map]
  exact List.map_congr_left fun c _ => toUpper_toUpper c

namespace Handler

def route (h : Handler) : Route := ⟨h.httpMethod.getD get, h.httpUrl, h.wantsVerifyPeer⟩

/-- The handler is one for the method, which is taken as it is written in a request. -/
def serves (methodName : Text) (h : Handler) : Bool := decide (upper (h.sipMethod.getD anyMethod) = methodName)

/-- The first handler for the method, or else the first one for all -/
def choice (methodName : Text) (handlers : List Handler) : Option Handler :=
  (handlers.find? (serves methodName)).or (handlers.find? (serves anyMethod))

theorem lookup_add (m : RequestRouter) (h : Handler) (methodName : Text) :
    (add m h).lookup methodName = (m.lookup methodName).or (if h.serves methodName = true then some h.route else none) := by
  unfold add RequestRouter.addRoute serves
  rw [upper_upper]
  by_cases hname : upper (h.sipMethod.getD anyMethod) = methodName
  · subst hname
    rw [AList.lookup_insertNew_self, if_pos (decide_eq_true rfl)]
    cases m.lookup _ <;> rfl
  · rw [AList.lookup_insertNew_ne fun heq => hname heq.symm, decide_eq_false hname, if_neg Bool.false_ne_true, Option.or_none]

theorem lookup_router (handlers : List Handler) (methodName : Text) :
    (router handlers).lookup methodName = (handlers.find? (serves methodName)).map route := by
  suffices hfold : ∀ m : RequestRouter, (handlers.foldl add m).lookup methodName =
      (m.lookup methodName).or ((handlers.find? (serves methodName)).map route) by
    rw [router, hfold, AList.lookup_empty, Option.none_or]
  induction handlers with
  | nil => exact fun m => (Option.or_none).symm
  | cons h handlers ih =>
    intro m
    rw [List.foldl_cons, ih, lookup_add, Option.or_assoc, List.find?_cons]
    cases hserves : h.serves methodName
    · rfl
    · rfl

theorem getRoute_router (handlers : List Handler) (methodName : Text) :
    (router handlers).getRoute methodName = (choice methodName handlers).map route := by
  unfold RequestRouter.getRoute choice
  rw [lookup_router, lookup_router]
  cases handlers.find? (serves methodName) <;> rfl

/-- A file with a handler leaves a table that is not empty. -/
theorem router_eq_empty {handlers : List Handler} : router handlers = ∅ ↔ handlers = [] := by
  constructor
  · intro hempty
    cases handlers with
    | nil => rfl
    | cons h handlers =>
      have hfound := lookup_router (h :: handlers) (upper (h.sipMethod.getD anyMethod))
      have hserves : h.serves (upper (h.sipMethod.getD anyMethod)) = true := decide_eq_true rfl
      rw [hempty, AList.lookup_empty, List.find?_cons, hserves] at hfound
      exact nomatch hfound
  · rintro rfl
    rfl

end Handler

theorem getCountOfRoutes_eq_zero {m : RequestRouter} : m.getCountOfRoutes = 0 ↔ m = ∅ := by
  unfold RequestRouter.getCountOfRoutes
  rw [List.length_eq_zero_iff]
  exact ⟨fun h => AList.ext h, fun h => h ▸ rfl⟩

/-! ### The options -/

/-- The urls that the options name -/
def httpHandlers (opts : List Opt) : List Text := opts.filterMap fun
  | .httpHandler optarg => some optarg
  | _ => none

/-- One of the options asks for POST, and the ones after it do not take it back. -/
def wantsPost (opts : List Opt) : Bool := opts.any fun
  | .httpMethod optarg => decide (upper optarg = "POST".toList)
  | _ => false

theorem run_httpUrl (a : Args) (opts : List Opt) :
    (run Args.take a opts).httpUrl = (httpHandlers opts).getLast?.getD a.httpUrl := by
  induction opts generalizing a with
  | nil => rfl
  | cons o opts ih =>
    rw [Machine.run_cons, ih]
    cases o with
    | httpHandler optarg => simp [httpHandlers, Args.take, List.getLast?_cons]
    | _ => rfl

theorem run_httpMethod (a : Args) (opts : List Opt) :
    (run Args.take a opts).httpMethod = if wantsPost opts = true then "POST".toList else a.httpMethod := by
  induction opts generalizing a with
  | nil => rfl
  | cons o opts ih =>
    rw [Machine.run_cons, ih]
    cases o with
    | httpMethod optarg =>
      have hcons : wantsPost (.httpMethod optarg :: opts) = (decide (upper optarg = "POST".toList) || wantsPost opts) := rfl
      have htake : (a.take (.httpMethod optarg)).httpMethod = if upper optarg = "POST".toList then "POST".toList
        else a.httpMethod := rfl
      rw [hcons, htake]
      cases wantsPost opts
      · rw [Bool.or_false, if_neg Bool.false_ne_true]
        exact if_congr decide_eq_true_iff.symm rfl rfl
      · rw [Bool.or_true]
        rfl
    | _ => rfl

/-! ### The route in force -/

/-- The route for all methods that the server is started with -/
def Startup.given (s : Startup) : Option Route :=
  match s.handlerUri with
  | some uri => some ⟨get, uri, true⟩
  | none =>
    if lastOf (httpHandlers s.opts) = [] then none
    else some ⟨if wantsPost s.opts = true then "POST".toList else get, lastOf (httpHandlers s.opts), true⟩

/-- The route for a method after the file was read again any number of times, where it was not valid each time -/
def inForce (s : Startup) (reloads : List (Option (List Handler))) (methodName : Text) : Option Route :=
  s.given.or (((s.handlers :: reloads.reduceOption).find? fun handlers => !handlers.isEmpty).bind fun handlers =>
    (Handler.choice methodName handlers).map Handler.route)

namespace Routing

/-- A step of the process -/
def reload (s : Routing) (file : Option (List Handler)) : Routing := s.handleSigHup file

/-- The table is that of the first of the files with a handler. -/
structure Holds (files : List (List Handler)) (s : Routing) : Prop where
  settled : s.configNew = none
  router : s.requestRouter = Handler.router ((files.find? fun handlers => !handlers.isEmpty).getD [])

theorem Holds.reload {files : List (List Handler)} {s : Routing} (h : s.Holds files) (file : Option (List Handler)) :
    (s.reload file).Holds (files ++ file.toList) := by
  unfold Routing.reload handleSigHup
  rw [h.settled]
  dsimp only
  cases file with
  | none => exact (List.append_nil files).symm ▸ h
  | some handlers =>
    refine ⟨rfl, ?_⟩
    unfold installConfig
    rw [List.find?_append]
    cases hfound : files.find? fun handlers => !handlers.isEmpty with
    | none =>
      have hempty : s.requestRouter.getCountOfRoutes = 0 := by
        rw [getCountOfRoutes_eq_zero, h.router, hfound]
        rfl
      dsimp only
      rw [if_pos hempty]
      cases handlers <;> rfl
    | some first =>
      have hfirst : first ≠ [] := by simpa using List.find?_some hfound
      have hnot : ¬ s.requestRouter.getCountOfRoutes = 0 := by
        rw [getCountOfRoutes_eq_zero, h.router, hfound, Option.getD_some, Handler.router_eq_empty]
        exact hfirst
      dsimp only
      rw [if_neg hnot, h.router, hfound]
      rfl

theorem Holds.run {files : List (List Handler)} {s : Routing} (h : s.Holds files) (reloads : List (Option (List Handler))) :
    (Machine.run Routing.reload s reloads).Holds (files ++ reloads.reduceOption) := by
  induction reloads generalizing files s with
  | nil => exact (List.append_nil files).symm ▸ h
  | cons file reloads ih =>
    have hstep := ih (h.reload file)
    rw [List.append_assoc] at hstep
    cases file <;> exact hstep

/-- A table with a route is there for good. -/
theorem run_of_count {s : Routing} (hsettled : s.configNew = none) (hcount : s.requestRouter.getCountOfRoutes ≠ 0)
    (reloads : List (Option (List Handler))) : Machine.run reload s reloads = s := by
  induction reloads with
  | nil => rfl
  | cons file reloads ih =>
    have hstep : s.reload file = s := by
      obtain ⟨router, configNew⟩ := s
      cases hsettled
      cases file with
      | none => rfl
      | some handlers => exact congrArg (Routing.mk · none) (if_neg hcount)
    rw [Machine.run_cons, hstep, ih]

theorem start_eq {s : Startup} {r : Routing} (h : start s = .ok r) :
    ∃ a, parseCmdArgs s.homerAddress s.homerId s.opts = .ok a ∧
      r = installConfig s.handlers ⟨addRoute a (getEnv s.handlerUri ∅), none⟩ := by
  unfold start at h
  split at h
  · exact nomatch h
  · rename_i a ha
    exact ⟨a, ha, (Except.ok.inj h).symm⟩

/-- The table with a route for all methods and no other -/
def only (route : Route) : RequestRouter := AList.insert anyMethod route ∅

theorem addRoute_empty (httpMethod httpUrl : Text) (verifyPeer : Bool) :
    RequestRouter.addRoute anyMethod httpMethod httpUrl verifyPeer ∅ = only ⟨httpMethod, httpUrl, verifyPeer⟩ := rfl

theorem addRoute_only (route : Route) (httpMethod httpUrl : Text) (verifyPeer : Bool) :
    (only route).addRoute anyMethod httpMethod httpUrl verifyPeer = only route :=
  AList.insertNew_of_mem ((AList.mem_insert ∅).mpr (Or.inl rfl))

theorem getRoute_only (route : Route) (methodName : Text) : (only route).getRoute methodName = some route := by
  have hany : (only route).lookup anyMethod = some route := AList.lookup_insert ∅
  unfold RequestRouter.getRoute
  by_cases hname : methodName = anyMethod
  · rw [hname, hany]
  · have hnone : (only route).lookup methodName = none := (AList.lookup_insert_ne hname).trans (AList.lookup_empty methodName)
    rw [hnone, hany]

/-- What the start leaves is the route that is given, or the table of the file. -/
theorem start_cases {s : Startup} {r : Routing} (h : start s = .ok r) :
    (∃ route, s.given = some route ∧ r = ⟨only route, none⟩) ∨ (s.given = none ∧ r.Holds [s.handlers]) := by
  obtain ⟨a, ha, rfl⟩ := start_eq h
  obtain ⟨-, hfinish⟩ := (parseCmdArgs_iff _ _ _ _).mp ha
  obtain ⟨-, -, rfl⟩ := (finish_iff _ _).mp hfinish
  have hurl : (run Args.take (Args.init s.homerAddress s.homerId) s.opts).httpUrl = lastOf (httpHandlers s.opts) :=
    run_httpUrl _ _
  have hmethod : (run Args.take (Args.init s.homerAddress s.homerId) s.opts).httpMethod =
      if wantsPost s.opts = true then "POST".toList else get := run_httpMethod _ _
  unfold Startup.given addRoute
  dsimp only
  rw [hurl, hmethod]
  cases s.handlerUri with
  | some uri =>
    refine Or.inl ⟨_, rfl, ?_⟩
    unfold getEnv
    dsimp only
    rw [addRoute_empty, addRoute_only, ite_self]
    rfl
  | none =>
    unfold getEnv
    dsimp only
    by_cases hnone : lastOf (httpHandlers s.opts) = []
    · rw [if_pos hnone, if_neg (not_not.mpr hnone)]
      refine Or.inr ⟨rfl, rfl, ?_⟩
      cases s.handlers <;> rfl
    · rw [if_neg hnone, if_pos hnone]
      exact Or.inl ⟨_, rfl, rfl⟩

/-- The route that a request finds after any number of signals: what the start gives before the first file with a handler -/
theorem getRoute_run {s : Startup} {r : Routing} (h : start s = .ok r) (reloads : List (Option (List Handler)))
    (methodName : Text) :
    (Machine.run reload r reloads).requestRouter.getRoute methodName = inForce s reloads methodName := by
  unfold inForce
  rcases start_cases h with ⟨route, hgiven, rfl⟩ | ⟨hgiven, hholds⟩
  · have hkept := run_of_count (s := ⟨only route, none⟩) rfl Nat.one_ne_zero reloads
    rw [hkept, hgiven, Option.some_or]
    exact getRoute_only route methodName
  · rw [(hholds.run reloads).router, hgiven, Option.none_or, Handler.getRoute_router, List.singleton_append]
    cases (s.handlers :: reloads.reduceOption).find? fun handlers => !handlers.isEmpty <;> rfl

/-- What the server does with a request, after any number of signals: the route in force decides it, the routing server
    is always verified, and a route without a url leaves the request to no client. -/
theorem route_in_force {Client : Type} {s : Startup} {r : Routing} (h : start s = .ok r)
    (reloads : List (Option (List Handler))) (methodName : Text) (client : Option Client) :
    processNewRequest methodName client (Machine.run reload r reloads).requestRouter =
      match inForce s reloads methodName with
      | some route => if route.url = [] then .nullClient else .makeRequestForRoute route.httpMethod route.url true
      | none => (client.map Handling.sendToClient).getD (.refuse 503) := by
  unfold processNewRequest
  rw [getRoute_run h]
  cases inForce s reloads methodName with
  | some route => rfl
  | none => cases client <;> rfl

/-- A start with an option and a file: the url of the option is asked with POST, and that of the file is not. -/
def pbx : Startup where
  handlerUri := none
  homerAddress := []
  homerId := 0
  opts := [.httpMethod "post".toList, .httpHandler "http://127.0.0.1".toList, .httpMethod "GET".toList]
  handlers := [⟨some "invite".toList, none, none, "http://10.0.0.1".toList⟩]

theorem route_in_force_pbx : processNewRequest "INVITE".toList (none : Option Nat)
    (Machine.run reload (installConfig pbx.handlers ⟨only ⟨"POST".toList, "http://127.0.0.1".toList, true⟩, none⟩)
      [none, some pbx.handlers]).requestRouter = .makeRequestForRoute "POST".toList "http://127.0.0.1".toList true :=
  route_in_force (s := pbx) (by rfl) [none, some pbx.handlers] "INVITE".toList none

end Routing

end Drachtio.Config
