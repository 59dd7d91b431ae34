import SlotLedger.Proofs.Ledger.Data

/-!
# Holdings

What a ledger says, without slots, words, layouts or bounds: who holds how much, who is a member of
what, how much there is and how much is audited.  Where data have slots of their own, a transaction
that applies an edit reads as the holdings with one entry changed.

## Main definitions

* `Holdings`, `View.holdings`: the abstract state
* `Holdings.AgreeOn`: two abstract states say the same of the accounts in question
* `Edit.effect`, `Holdings.edited`: what edits do to the holdings

## Main results

* `Bindings.Separates.agreeOn_apply`, `Bindings.Separates.agreeOn_applyAll`: edits act on words as
  on the holdings
-/

namespace SlotLedger

/-- What a ledger says. -/
structure Holdings where
  balance : Account → ℤ
  member : Role → Account → Bool
  supply : ℤ
  /-- The audited amount, where there is a counter for it. -/
  audited : Option ℤ

namespace Holdings

/-- The holdings with another balance for an account. -/
def setBalance (h : Holdings) (account : Account) (value : ℤ) : Holdings :=
  { h with balance := Function.update h.balance account value }

/-- The holdings with another membership for an account in a role. -/
def setMember (h : Holdings) (role : Role) (account : Account) (value : Bool) : Holdings :=
  { h with member := Function.update h.member role (Function.update (h.member role) account value) }

/-- The two say the same of the accounts in question, of the supply and of the counter. -/
structure AgreeOn (accounts : Set Account) (h h' : Holdings) : Prop where
  balance : ∀ a ∈ accounts, h.balance a = h'.balance a
  member : ∀ role, ∀ a ∈ accounts, h.member role a = h'.member role a
  supply : h.supply = h'.supply
  audited : h.audited = h'.audited

variable {accounts : Set Account} {h h' h'' : Holdings}

theorem AgreeOn.refl (h : Holdings) : AgreeOn accounts h h := ⟨by simp, by simp, rfl, rfl⟩

theorem AgreeOn.trans (hh' : AgreeOn accounts h h') (hh'' : AgreeOn accounts h' h'') :
    AgreeOn accounts h h'' where
  balance a ha := (hh'.balance a ha).trans (hh''.balance a ha)
  member role a ha := (hh'.member role a ha).trans (hh''.member role a ha)
  supply := hh'.supply.trans hh''.supply
  audited := hh'.audited.trans hh''.audited

theorem setBalance_setBalance (h : Holdings) (account : Account) (value value' : ℤ) :
    (h.setBalance account value).setBalance account value' = h.setBalance account value' := by
  simp only [setBalance, Function.update_idem]

theorem setBalance_self (h : Holdings) (account : Account) :
    h.setBalance account (h.balance account) = h := by
  simp only [setBalance, Function.update_eq_self]

theorem AgreeOn.setBalance (hh' : AgreeOn accounts h h') (account : Account) (value : ℤ) :
    AgreeOn accounts (h.setBalance account value) (h'.setBalance account value) := by
  refine ⟨fun a ha => ?_, hh'.member, hh'.supply, hh'.audited⟩
  simp only [Holdings.setBalance, Function.update_apply, hh'.balance a ha]

theorem AgreeOn.setMember (hh' : AgreeOn accounts h h') (role : Role) (account : Account)
    (value : Bool) :
    AgreeOn accounts (h.setMember role account value) (h'.setMember role account value) := by
  refine ⟨hh'.balance, fun r a ha => ?_, hh'.supply, hh'.audited⟩
  simp only [Holdings.setMember, Function.update_apply]
  by_cases hr : r = role
  · subst hr
    simp only [if_true, Function.update_apply, hh'.member r a ha]
  · simp only [if_neg hr, hh'.member r a ha]

end Holdings

/-- What a view says. -/
def View.holdings (v : View) : Holdings where
  balance a := (v.balanceOf a).toNat
  member := v.hasRole
  supply := v.totalSupply.toNat
  audited := v.totalAudited.map fun x => (x.toNat : ℤ)

section View

variable (v : View)

theorem View.balance_holdings (a : Account) : v.holdings.balance a = (v.balanceOf a).toNat := rfl

theorem View.member_holdings (r : Role) (a : Account) :
    v.holdings.member r a = v.hasRole r a := rfl

theorem View.supply_holdings : v.holdings.supply = v.totalSupply.toNat := rfl

theorem View.audited_holdings :
    v.holdings.audited = v.totalAudited.map fun x => (x.toNat : ℤ) := rfl

end View

/-! ## Edits -/

/-- What an edit does to the holdings: one entry changes. -/
def Edit.effect : Edit → Holdings → Holdings
  | .balance account value, h => h.setBalance account value.toNat
  | .totalSupply value, h => { h with supply := value.toNat }
  | .totalAudited value, h => { h with audited := h.audited.map fun _ => (value.toNat : ℤ) }
  | .role r account member, h => h.setMember r account member
  | .initialized, h => h

/-- What edits in order do to the holdings. -/
def Holdings.edited (h : Holdings) (edits : List Edit) : Holdings :=
  edits.foldl (fun h e => e.effect h) h

section Edits

variable {accounts : Set Account} {h h' : Holdings}

theorem Edit.agreeOn_effect (hh' : Holdings.AgreeOn accounts h h') (e : Edit) :
    Holdings.AgreeOn accounts (e.effect h) (e.effect h') := by
  cases e with
  | balance account value => exact hh'.setBalance account _
  | totalSupply value => exact ⟨hh'.balance, hh'.member, rfl, hh'.audited⟩
  | totalAudited value =>
    exact ⟨hh'.balance, hh'.member, hh'.supply, congrArg (Option.map _) hh'.audited⟩
  | role role account member => exact hh'.setMember role account member
  | initialized => exact hh'

theorem Holdings.AgreeOn.edited (hh' : Holdings.AgreeOn accounts h h') (edits : List Edit) :
    Holdings.AgreeOn accounts (h.edited edits) (h'.edited edits) := by
  induction edits generalizing h h' with
  | nil => exact hh'
  | cons e rest ih => exact ih (e.agreeOn_effect hh')

/-! An edit has its word as the entry of its datum, and leaves every other entry. -/

theorem Transaction.membership_ne_zero (member : Bool) : (membership member != 0) = member := by
  cases member <;> rfl

namespace Edit

variable (e : Edit) (h : Holdings)

theorem balance_effect (a : Account) :
    (e.effect h).balance a =
      if e.datum = .cell (.balance a) then (e.word.toNat : ℤ) else h.balance a := by
  cases e with
  | balance account value =>
    simp only [effect, Holdings.setBalance, Function.update_apply, datum, word, Datum.cell.injEq,
      Cell.balance.injEq, eq_comm (a := a)]
  | _ => simp [effect, datum, Holdings.setMember]

theorem member_effect (r : Role) (a : Account) :
    (e.effect h).member r a =
      if e.datum = .cell (.member r a) then e.word != 0 else h.member r a := by
  cases e with
  | role r' account member =>
    simp only [effect, Holdings.setMember, datum, word, Datum.cell.injEq, Cell.member.injEq,
      Transaction.membership_ne_zero]
    by_cases hr : r = r'
    · subst hr
      simp only [Function.update_self, Function.update_apply, true_and, eq_comm (a := a)]
    · rw [Function.update_of_ne hr, if_neg fun hsame => hr hsame.1.symm]
  | _ => simp [effect, datum, Holdings.setBalance]

theorem supply_effect :
    (e.effect h).supply = if e.datum = .totalSupply then (e.word.toNat : ℤ) else h.supply := by
  cases e <;> simp [effect, datum, word, Holdings.setBalance, Holdings.setMember]

theorem audited_effect :
    (e.effect h).audited =
      h.audited.map fun x => if e.datum = .totalAudited then (e.word.toNat : ℤ) else x := by
  cases e <;> simp [effect, datum, word, Holdings.setBalance, Holdings.setMember]

end Edit

namespace Bindings.Separates

variable {b : Bindings} (hb : b.Separates accounts)

include hb

/-- **An edit acts on words as on the holdings.** -/
theorem agreeOn_apply {tx : Transaction} (htx : tx.bindings = b) {e : Edit}
    (he : e.datum.IsAmong accounts) :
    Holdings.AgreeOn accounts (tx.apply e).view.holdings (e.effect tx.view.holdings) := by
  have hread : ∀ {p : Datum} {slot : Slot}, p.IsAmong accounts → tx.bindings.slotAt p = some slot →
      (tx.apply e).load slot = if e.datum = p then e.word else tx.load slot :=
    fun hp hslot => hb.load_apply htx he hp (htx ▸ hslot)
  have hbindings := Transaction.bindings_apply tx e
  constructor
  · intro a ha
    have hword := hread (p := .cell (.balance a)) ha rfl
    rw [Edit.balance_effect, View.balance_holdings, View.balance_holdings, View.balanceOf,
      Transaction.view, hbindings]
    exact (congrArg (fun w : Word => (w.toNat : ℤ)) hword).trans
      (apply_ite (fun w : Word => (w.toNat : ℤ)) _ _ _)
  · intro r a ha
    have hword := hread (p := .cell (.member r a)) ha rfl
    rw [Edit.member_effect, View.member_holdings, View.member_holdings, View.hasRole,
      Transaction.view, hbindings]
    exact (congrArg (fun w : Word => w != 0) hword).trans (apply_ite (fun w : Word => w != 0) _ _ _)
  · have hword := hread (p := .totalSupply) trivial rfl
    rw [Edit.supply_effect, View.supply_holdings, View.supply_holdings, View.totalSupply,
      Transaction.view, hbindings]
    exact (congrArg (fun w : Word => (w.toNat : ℤ)) hword).trans
      (apply_ite (fun w : Word => (w.toNat : ℤ)) _ _ _)
  · rw [Edit.audited_effect, View.audited_holdings, View.audited_holdings, View.totalAudited,
      Transaction.view, hbindings, View.totalAudited, Option.map_map, Option.map_map,
      Option.map_map]
    refine Option.map_congr fun slot hslot => ?_
    have hword := hread (p := .totalAudited) trivial hslot
    exact (congrArg (fun w : Word => (w.toNat : ℤ)) hword).trans
      (apply_ite (fun w : Word => (w.toNat : ℤ)) _ _ _)

/-- **Edits act on words as on the holdings.** -/
theorem agreeOn_applyAll {tx : Transaction} (htx : tx.bindings = b) {edits : List Edit}
    (hedits : ∀ e ∈ edits, e.datum.IsAmong accounts) :
    Holdings.AgreeOn accounts (tx.applyAll edits).view.holdings
      (tx.view.holdings.edited edits) := by
  -- On the edits; the abstract side follows the first edit up to agreement.
  induction edits generalizing tx with
  | nil => exact .refl _
  | cons e rest ih =>
    obtain ⟨he, hrest⟩ := List.forall_mem_cons.mp hedits
    have hrest' := ih ((Transaction.bindings_apply tx e).trans htx) hrest
    exact hrest'.trans ((hb.agreeOn_apply htx he).edited rest)

end Bindings.Separates

end Edits

end SlotLedger
