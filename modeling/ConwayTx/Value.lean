import ConwayTx.Amount
import ConwayTx.AssetName
import ConwayTx.SortedMap

/-!
# Values

Lovelace plus quantities of native assets. Quantities are unbounded integers, so only the lovelace
can overflow. Arithmetic drops zero quantities and empty policies (`prune`); a value put together
by hand may hold them.
-/

namespace ConwayTx

abbrev AssetBundle := SortedMap AssetName Int
abbrev MultiAsset := SortedMap PolicyId AssetBundle

namespace MultiAsset

def quantity (m : MultiAsset) (policy : PolicyId) (name : AssetName) : Int :=
  ((m.find? policy).bind (·.find? name)).getD 0

/-- All entries in map order. -/
def listed (m : MultiAsset) : List (PolicyId × AssetName × Int) :=
  m.entries.flatMap fun (policy, names) => names.entries.map fun (name, q) => (policy, name, q)

def positive (m : MultiAsset) : List (PolicyId × AssetName × Int) :=
  m.listed.filter fun (_, _, q) => 0 < q

/-- Adds to one quantity; the entry stays even at zero. -/
def bump (m : MultiAsset) (policy : PolicyId) (name : AssetName) (q : Int) : MultiAsset :=
  let names := (m.find? policy).getD ∅
  m.insert policy (names.insert name ((names.find? name).getD 0 + q))

/-- Without zero quantities and empty policies. -/
def prune (m : MultiAsset) : MultiAsset :=
  (m.mapValues (·.filter fun _ q => q ≠ 0)).filter fun _ names => !names.isEmpty

def addAll (m other : MultiAsset) (sign : Int) : MultiAsset :=
  other.listed.foldl (fun m (policy, name, q) => m.bump policy name (sign * q)) m

end MultiAsset

inductive ValueError where
  | coinOverflow (left right : Amount)
  | coinUnderflow (held need : Amount)
  | assetUnderflow (policy : PolicyId) (name : AssetName) (held need : Int)
deriving DecidableEq

/-- The name of the cause in reports. -/
def ValueError.name : ValueError → String
  | coinOverflow .. => "CoinOverflow"
  | coinUnderflow .. => "CoinUnderflow"
  | assetUnderflow .. => "AssetUnderflow"

def ValueError.message : ValueError → String
  | coinOverflow left right => s!"Coin overflow adding {left.toNat} and {right.toNat}"
  | coinUnderflow held need => s!"Coin underflow: have {held.toNat}, need {need.toNat}"
  | assetUnderflow policy name held need =>
    s!"Asset underflow for {policy}.{name}: have {held}, need {need}"

@[ext]
structure Value where
  coin : Amount
  assets : Option MultiAsset
deriving DecidableEq

namespace Value

def ofCoin (coin : Amount) : Value := ⟨coin, none⟩

instance : Inhabited Value := ⟨ofCoin 0⟩

/-- The asset map, empty where there is none. -/
def bundle (v : Value) : MultiAsset := v.assets.getD ∅

/-- Drops zero quantities and empty policies, and the map itself once nothing is left. -/
def prune (v : Value) : Value :=
  match v.assets with
  | none => v
  | some m => ⟨v.coin, if m.prune.isEmpty then none else some m.prune⟩

def withAssets (coin : Amount) (assets : MultiAsset) : Value := prune ⟨coin, some assets⟩

def quantity (v : Value) (policy : PolicyId) (name : AssetName) : Int :=
  v.bundle.quantity policy name

/-- Policies, names and quantities above zero, in map order. -/
def positive (v : Value) : List (PolicyId × AssetName × Int) := v.bundle.positive

def hasAssets (v : Value) : Bool := !v.positive.isEmpty

def addAsset (v : Value) (policy : PolicyId) (name : AssetName) (q : Int) : Value :=
  prune ⟨v.coin, some (v.bundle.bump policy name q)⟩

def coinOnly (v : Value) : Value := ofCoin v.coin

def assetsOnly (v : Value) : Value := ⟨0, v.assets⟩

def add (a b : Value) : Except ValueError Value :=
  match Amount.ofNat? (a.coin.toNat + b.coin.toNat) with
  | none => .error (.coinOverflow a.coin b.coin)
  | some coin =>
    match b.assets with
    | none => .ok (prune ⟨coin, a.assets⟩)
    | some assets => .ok (prune ⟨coin, some (a.bundle.addAll assets 1)⟩)

/-- The first listed asset of `b` that `a` holds less of. -/
def uncovered? (a b : Value) : Option (PolicyId × AssetName × Int) :=
  b.bundle.listed.find? fun (policy, name, q) => a.quantity policy name - q < 0

def sub (a b : Value) : Except ValueError Value :=
  if a.coin < b.coin then .error (.coinUnderflow a.coin b.coin)
  else
    match uncovered? a b with
    | some (policy, name, q) => .error (.assetUnderflow policy name (a.quantity policy name) q)
    | none =>
      match b.assets with
      | none => .ok (prune ⟨a.coin - b.coin, a.assets⟩)
      | some assets => .ok (prune ⟨a.coin - b.coin, some (a.bundle.addAll assets (-1))⟩)

/-- What is still needed of `required` once `supplied` is there; nothing goes below zero. -/
def monus (required supplied : Value) : Value :=
  required.positive.foldl
    (fun v (policy, name, q) =>
      let remaining := q - supplied.quantity policy name
      if 0 < remaining then v.addAsset policy name remaining else v)
    (ofCoin (Amount.clamp (required.coin.toNat - supplied.coin.toNat)))

/-- `a` has the coin of `b` and every asset `b` has above zero. -/
def covers (a b : Value) : Bool :=
  b.coin ≤ a.coin && b.positive.all fun (policy, name, q) => q ≤ a.quantity policy name

/-- Equal coin and equal asset maps, where none counts as empty. -/
instance : BEq Value := ⟨fun a b => a.coin = b.coin && a.bundle = b.bundle⟩

end Value

end ConwayTx
