import OnScreen.Report

namespace OnScreen

/-!
# The ledger of visible items

Whoever receives the reports can keep a ledger of the items that are on screen: a batch of
visibility changes takes the items that went away off the ledger and then puts the new ones on it.
No other report and no other call says anything about it.

* `Ledger.post` — one batch.
* `Ledger.ofReports`, `Ledger.ofCalls` — the ledger after everything that was reported or called.
-/

/-- The keys of the items that are believed to be on screen. -/
structure Ledger where
  keys : List ItemKey
  deriving DecidableEq, Repr

namespace Ledger

/-- Nothing is on screen. -/
def empty : Ledger := ⟨[]⟩

instance : EmptyCollection Ledger := ⟨empty⟩

/-- The ledger after a batch of visibility changes. -/
def post (l : Ledger) (newly noLonger : List Record) : Ledger :=
  ⟨(l.keys.filter fun k => !Record.hasKey noLonger k) ++ newly.map Record.key⟩

/-- A batch fits a ledger when every item that went away was on it, no new item was, and no item is
    named twice. -/
def Fits (l : Ledger) (newly noLonger : List Record) : Prop :=
  (∀ r ∈ noLonger, r.key ∈ l.keys) ∧ (∀ r ∈ newly, r.key ∉ l.keys) ∧
    ((newly ++ noLonger).map Record.key).Nodup

/-- The ledger after a report. -/
def afterReport (l : Ledger) : Report → Ledger
  | .visibility newly noLonger => l.post newly noLonger
  | _ => l

/-- The ledger after a call. -/
def afterCall (l : Ledger) : Call → Ledger
  | .visibilityChanges newly noLonger => l.post newly noLonger
  | _ => l

/-- The ledger after some reports. -/
def ofReports (reports : List Report) : Ledger := reports.foldl afterReport ∅

/-- The ledger after some calls. -/
def ofCalls (calls : List Call) : Ledger := calls.foldl afterCall ∅

/-- The calls of a report say what the report says. -/
theorem foldl_calls (l : Ledger) (r : Report) : r.calls.foldl afterCall l = l.afterReport r := by
  cases r with
  | visibility newly noLonger => cases newly <;> rfl
  | expansion c => rfl
  | panelShown lockscreen items => rfl
  | itemError key message => rfl

/-- A ledger can be kept up to some point and taken on from there. -/
theorem ofReports_append (xs ys : List Report) :
    ofReports (xs ++ ys) = ys.foldl afterReport (ofReports xs) := by
  simp [ofReports]

/-- So can one that is kept from calls. -/
theorem ofCalls_append (xs ys : List Call) :
    ofCalls (xs ++ ys) = ys.foldl afterCall (ofCalls xs) := by
  simp [ofCalls]

end Ledger

end OnScreen
