import Radvd.Grammar.Results

/-!
# Blocks of addresses

The blocks `AdvRASrcAddress` and `autoignoreprefixes` stay in the order in which
they are written, and the entries of a block are in reverse order
(`Ifacedef.Gives.rasrcaddresslist`, `Ifacedef.Gives.ignoreprefixlist`).
-/

namespace Radvd.Grammar

open Wire

def Ifaceparam.asRasrcaddresslist : Ifaceparam → Option (List In6Addr)
  | .rasrcaddresslist first rest => some (first :: rest)
  | _ => none

def rasrcaddresslists (params : List Ifaceparam) : List (List In6Addr) :=
  params.filterMap Ifaceparam.asRasrcaddresslist

def Ifaceparam.asIgnoreprefixlist : Ifaceparam → Option (List IgnoreprefixText)
  | .ignoreprefixlist first rest => some (first :: rest)
  | _ => none

def ignoreprefixlists (params : List Ifaceparam) : List (List IgnoreprefixText) :=
  params.filterMap Ifaceparam.asIgnoreprefixlist

theorem forall₂_of_mapM {α β : Type} {scan : α → Parsing β} {texts : List α} {values : List β}
    (scanned : texts.mapM scan = .ok values) :
    List.Forall₂ (fun text value => scan text = .ok value) texts values := by
  induction texts generalizing values with
  | nil =>
      cases scanned
      exact .nil
  | cons text rest ih =>
      simp only [List.mapM_cons, bind_eq_ok, pure_eq_ok] at scanned
      rcases scanned with ⟨value, first, others, later, rfl⟩
      exact .cons first (ih later)

section

variable {definition : Ifacedef} {iface : Interface}

theorem Ifacedef.Gives.rasrcaddresslist (gives : definition.Gives iface) :
    iface.advRASrcAddressList =
      (rasrcaddresslists definition.params).flatMap List.reverse := by
  rcases gives with ⟨others, start, head, params⟩
  rw [ifacehead_eq_ok head] at params
  have found := @blocks_of_ifaceparams _ _ (fun block entries => entries = block.reverse)
    .rasrcaddresslist Ifaceparam.asRasrcaddresslist id ?_ ?_ _ _ _ params
  · rcases found with ⟨blocks, given, viewed⟩
    have reversed : blocks = (rasrcaddresslists definition.params).map List.reverse := by
      clear viewed
      unfold rasrcaddresslists
      generalize definition.params.filterMap Ifaceparam.asRasrcaddresslist = written at given
      induction given with
      | nil => rfl
      | cons same _ ih => rw [same, ih, List.map_cons]
    rw [List.flatMap_def, ← reversed]
    exact viewed
  · intro param picked same
    cases param with
    | ifaceval value => cases value <;> cases same
    | rasrcaddresslist first rest => cases picked
    | _ => cases same
  · intro before after param block picked read
    cases param <;> cases picked
    simp only [ifaceparam, pure_eq_ok] at read
    subst read
    exact ⟨_, rfl, rfl⟩

theorem Ifacedef.Gives.ignoreprefixlist (gives : definition.Gives iface) :
    List.Forall₂ (fun text entry => ignoreprefix text = .ok entry)
      ((ignoreprefixlists definition.params).flatMap List.reverse) iface.ignorePrefixList := by
  rcases gives with ⟨others, start, head, params⟩
  rw [ifacehead_eq_ok head] at params
  have found := @blocks_of_ifaceparams _ _
    (fun block entries => List.Forall₂ (fun text entry => ignoreprefix text = .ok entry)
      block.reverse entries) .ignoreprefixlist Ifaceparam.asIgnoreprefixlist id ?_ ?_ _ _ _ params
  · rcases found with ⟨blocks, given, viewed⟩
    replace viewed : iface.ignorePrefixList = blocks.flatten := viewed
    rw [viewed]
    clear viewed
    unfold ignoreprefixlists
    generalize definition.params.filterMap Ifaceparam.asIgnoreprefixlist = written at given
    induction given with
    | nil => exact .nil
    | cons entries _ ih => exact List.rel_append entries ih
  · intro param picked same
    cases param with
    | ifaceval value => cases value <;> cases same
    | ignoreprefixlist first rest => cases picked
    | _ => cases same
  · intro before after param block picked read
    cases param <;> cases picked
    simp only [ifaceparam, bind_eq_ok, pure_eq_ok] at read
    rcases read with ⟨entries, scanned, rfl⟩
    refine ⟨_, ?_, rfl⟩
    rw [List.forall₂_reverse_iff]
    exact forall₂_of_mapM scanned

end

end Radvd.Grammar
