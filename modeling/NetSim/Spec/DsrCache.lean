import NetSim.Lib.Loop
import NetSim.Spec.Dsr

/-!
# The route cache of DSR

`fn_NetSim_DSR_CheckRouteFound` and `fn_NetSim_DSR_DeleteEntryFromRouteCache` over the cache of a node, with the reads that
go wrong for routes that are too short: `none` stands for such a read.
-/

namespace NetSim.Dsr

variable {ι : Type*} [DecidableEq ι]

/-- `fn_NetSim_DSR_CheckRouteFound`: the route and the next hop, if there is one, and the node. -/
def checkRouteFound (d : DeviceVar ι) (destAddress : ι) (time : ℚ) : Option (Option (RouteCache ι × ι) × DeviceVar ι) :=
  let d' := { d with routeCache := (findCache d.routeCache destAddress time).2 }
  match (findCache d.routeCache destAddress time).1 with
  | none => some (none, d')
  | some cache => cache.address[1]?.map fun nextHop => (some (cache, nextHop), d')

/-- Whether the loop over a route finds the link. For an empty route the bound `nLength - 1` is the greatest `unsigned int`. -/
def findsLink (ip1 ip2 : ι) (address : List ι) : Option Bool :=
  if address = [] then none else some (usesLink ip1 ip2 address)

/-- A round of `fn_NetSim_DSR_DeleteEntryFromRouteCache`, over the entries before `cache` and those from it on. After a removal
it starts from the head again. -/
def deleteRound (ip1 ip2 : ι) : List (RouteCache ι) × List (RouteCache ι) →
    (List (RouteCache ι) × List (RouteCache ι)) ⊕ Option (List (RouteCache ι))
  | (before, []) => .inr (some before)
  | (before, cache :: rest) =>
    match findsLink ip1 ip2 cache.address with
    | none => .inr none
    | some true => .inl ([], before ++ rest)
    | some false => .inl (before ++ [cache], rest)

/-- `fn_NetSim_DSR_DeleteEntryFromRouteCache`, with at most the given number of rounds: `some none` is a read that goes wrong. -/
def deleteEntries (ip1 ip2 : ι) (routeCache : List (RouteCache ι)) (rounds : ℕ) : Option (Option (List (RouteCache ι))) :=
  Loop.run (deleteRound ip1 ip2) rounds ([], routeCache)

/-- A run of a node: the replies that it has received, lookups and deletions. -/
inductive CacheRun (start : DeviceVar ι) : List (List ι) → DeviceVar ι → Prop
  | start (h : start.routeCache = []) : CacheRun start [] start
  | reply {replies : List (List ι)} {d : DeviceVar ι} (address : List ι) (time : ℚ) (h : CacheRun start replies d) :
      CacheRun start (replies ++ [address]) (processRrep d address time)
  | lookup {replies : List (List ι)} {d d' : DeviceVar ι} {destAddress : ι} {time : ℚ} {found : Option (RouteCache ι × ι)}
      (h : CacheRun start replies d) (hfound : checkRouteFound d destAddress time = some (found, d')) :
      CacheRun start replies d'
  | delete {replies : List (List ι)} {d : DeviceVar ι} {ip1 ip2 : ι} {cache : List (RouteCache ι)}
      (h : CacheRun start replies d) (hcache : Loop.Gives (deleteEntries ip1 ip2 d.routeCache) (some cache)) :
      CacheRun start replies { d with routeCache := cache }

end NetSim.Dsr
