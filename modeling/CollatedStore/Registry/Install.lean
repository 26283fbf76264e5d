import CollatedStore.Registry.Basic

/-!
Records of which database order uses which slot. An installation is recorded before the store is
asked for it, and taken back if the store refuses; slots are only freed once the answer is known.
-/
namespace CollatedStore

namespace Registry

/-- Lets `site` use `slot`, or none. Gives the slot it used before. -/
def record (r : Registry) (site : Site) (slot : Option SlotIndex) :
    Option SlotIndex × Registry :=
  let previous := r.installs.get? site
  let installs :=
    match slot with
    | some i => r.installs.insert site i
    | none => r.installs.erase site
  let r := { r with installs }
  let r :=
    match previous with
    | some i =>
      if slot = some i then r
      else r.modifySlot i fun s => { s with users := s.users.erase site }
    | none => r
  let r :=
    match slot with
    | some i => r.modifySlot i fun s => { s with users := s.users.insert site }
    | none => r
  (previous, r)

/-- An installation that waits for the store's answer. -/
structure Installing where
  site : Site
  fn : CompareFn
  slot : Option SlotIndex
  previous : Option SlotIndex

/-- Records the installation of `mode` at `site`. -/
def beginInstall (r : Registry) (site : Site) (mode : Dispatch) :
    Except CallError (Installing × Registry) :=
  match r.resolve mode with
  | .error e => .error e
  | .ok (fn, slot) =>
    let (previous, r) := r.record site slot
    .ok (⟨site, fn, slot, previous⟩, r)

/-- Frees `slot` if it is idle, unless it is also `other`. -/
def sweepUnless (r : Registry) (slot other : Option SlotIndex) : Registry :=
  match slot with
  | some i => if other = some i then r else r.sweep i
  | none => r

/-- Settles an installation once the store has taken or refused the function. -/
def endInstall (r : Registry) (i : Installing) (taken : Bool) : Registry :=
  if taken then r.sweepUnless i.previous i.slot
  else (r.record i.site i.previous).2.sweepUnless i.slot i.previous

/-- Takes back one record, and frees the slot it was about if that leaves it idle. -/
def forgetSite (r : Registry) (site : Site) : Registry :=
  match r.record site none with
  | (some i, r) => r.sweep i
  | (none, r) => r

/-- Drops the records of a closed environment, and tells how many there were. -/
def forgetEnvironment (r : Registry) (envId : UInt64) : Nat × Registry :=
  let sites := r.installs.keys.filter fun site => site.envId == envId
  (sites.length, sites.foldl forgetSite r)

end Registry

end CollatedStore
