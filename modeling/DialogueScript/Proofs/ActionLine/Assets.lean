/-
# Assets of a line

A parameter that is read as an asset gives the name joined from it.  No separator of the line stands
in a parameter, and joining the words of a name brings none in, so the joined name can be a
parameter itself (`plain_ofRaw`).  Written as one it is cut where it was put, and since it is the
name of itself, reading it as an asset gives the same asset again.
-/
import DialogueScript.Proofs.ActionLine.TypedValues
import DialogueScript.Proofs.Asset

namespace DialogueScript

/-- What can be a parameter as it stands gives a name that can be one. -/
theorem plain_ofRaw {raw : String} (h : Plain raw) : Plain (AssetName.ofRaw raw).text :=
  ⟨AssetName.not_mem_ofRaw (by decide) (.inr h.1), AssetName.not_mem_ofRaw (by decide) (.inr h.2)⟩

namespace ActionLine

/-- An asset that a read hands out is the name of a parameter of the line. -/
theorem exists_parameter_of_answer_asset {line : ActionLine} {name : String} {asset : AssetName}
    (h : (line.answer ⟨.asset, name⟩).1 = .ok (.asset asset)) :
    ∃ token ∈ line.parameters, asset = AssetName.ofRaw token := by
  have hvalue : (line.answer ⟨.asset, name⟩).1.isValue = true := by
    rw [h]
    rfl
  obtain ⟨token, value, htoken, hread, hanswer⟩ := (readStep_answer _ line).value_eq hvalue
  obtain rfl := Option.some.inj hread
  refine ⟨token, List.mem_of_getElem? htoken, ?_⟩
  exact ReadValue.asset.inj (Except.ok.inj (h.symm.trans hanswer))

/-- A name that an action is written with, and that is the name of itself, is read back. -/
theorem parse_asset {action : String} {asset : AssetName} (haction : ':' ∉ action.toList)
    (hplain : Plain asset.text) (hself : AssetName.ofRaw asset.text = asset) :
    ∃ written, parse ("<" ++ action ++ ":" ++ asset.text ++ ">") = .ok written ∧
      written.action = action ∧ written.parameters = [asset.text] ∧
      ∀ label, (written.answer ⟨.asset, label⟩).1 = .ok (.asset asset) := by
  have hseparable : Separable action [asset.text] :=
    ⟨List.cons_ne_nil _ _, haction, List.forall_mem_singleton.mpr hplain⟩
  let written : ActionLine := ⟨action, [asset.text], 0⟩
  refine ⟨written, hseparable.parse_written, rfl, rfl, fun label => ?_⟩
  have hvalue : ReadKind.asset.value? asset.text = some (.asset asset) := by
    rw [ReadKind.value?, hself]
  have hanswer : written.answer ⟨.asset, label⟩
      = (.ok (.asset asset), written.advance) := answer_of_value? rfl hvalue
  rw [hanswer]

/-- **Asset names are normal forms and can be written back.**  The name of any text has no
underscore and no space in it, and is the name of itself.  A name that a parsed line hands out has no separator
of lines in it either: written as the parameter of any action, it is that line's only parameter, and
reading it gives the same asset. -/
theorem asset_stable :
    (∀ raw, '_' ∉ (AssetName.ofRaw raw).text.toList ∧ ' ' ∉ (AssetName.ofRaw raw).text.toList ∧
      AssetName.ofRaw (AssetName.ofRaw raw).text = AssetName.ofRaw raw) ∧
    ∀ text line requests name asset, parse text = .ok line →
      ((line.after requests).answer ⟨.asset, name⟩).1 = .ok (.asset asset) →
      ':' ∉ asset.text.toList ∧ ',' ∉ asset.text.toList ∧
      ∀ action : String, ':' ∉ action.toList →
        ∃ written, parse ("<" ++ action ++ ":" ++ asset.text ++ ">") = .ok written ∧
          written.action = action ∧ written.parameters = [asset.text] ∧
          ∀ label, (written.answer ⟨.asset, label⟩).1 = .ok (.asset asset) := by
  refine ⟨fun raw => ⟨?_, ?_, AssetName.ofRaw_text raw⟩, ?_⟩
  · exact AssetName.not_mem_ofRaw (by decide) (.inl rfl)
  · exact AssetName.not_mem_ofRaw (by decide) (.inl rfl)
  · intro text line requests name asset hparse hanswer
    obtain ⟨token, htoken, rfl⟩ := exists_parameter_of_answer_asset hanswer
    rw [parameters_after] at htoken
    have hplain := plain_ofRaw ((separable_of_parse hparse).separator_not_mem token htoken)
    exact ⟨hplain.1, hplain.2, fun action haction =>
      parse_asset haction hplain (AssetName.ofRaw_text token)⟩

/-- The law at a name whose capital is two characters, read behind another parameter. -/
theorem asset_stable_of_sharp_s :
    let line : ActionLine := ⟨"show", ["3", "_ßo x"], 0⟩
    let requests : List Request := [⟨.integer, "slot"⟩]
    parse "<show:3,_ßo x>" = .ok line ∧
      ((line.after requests).answer ⟨.asset, "who"⟩).1 = .ok (.asset ⟨"SSoX"⟩) ∧
      ':' ∉ "hide,".toList ∧
      ∃ written, parse "<hide,:SSoX>" = .ok written ∧ written.action = "hide," ∧
        written.parameters = ["SSoX"] ∧
        ∀ label, (written.answer ⟨.asset, label⟩).1 = .ok (.asset ⟨"SSoX"⟩) := by
  intro line requests
  have hparse : parse "<show:3,_ßo x>" = .ok line := by decide +kernel
  have hanswer : ((line.after requests).answer ⟨.asset, "who"⟩).1 = .ok (.asset ⟨"SSoX"⟩) := by
    decide +kernel
  have haction : ':' ∉ "hide,".toList := by decide
  obtain ⟨-, -, hwritten⟩ := asset_stable.2 _ _ _ _ _ hparse hanswer
  exact ⟨hparse, hanswer, haction, hwritten "hide," haction⟩

end ActionLine

end DialogueScript
