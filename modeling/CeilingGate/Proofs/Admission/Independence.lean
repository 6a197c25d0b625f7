import CeilingGate.Proofs.Admission.Agree
import CeilingGate.Proofs.Workload.Visible

/-! What an answer does not depend on. Two requests for objects of one kind that agree in their visible
parts, in one namespace and under one requested name, are answered alike. -/
namespace CeilingGate.Admission

open CeilingGate.Policy CeilingGate.Workload

variable {g : Generation} {r r' : Request} {v w : Value} {s s' : Snapshot}

theorem readSnapshot_of_decoded (hs : IsSubject r) (hv : bodyObject r.object = .ok v)
    (hd : decoded r = .ok s) : readSnapshot (kindOf r) (requestedTarget r) v = .ok s := by
  rw [decoded, decode_of_object (kindOf_ne hs) hv] at hd
  exact mapError_eq_ok.mp hd

/-- Objects that look alike have one snapshot under requests that agree in name and namespace. -/
theorem decoded_of_looksAlike (hs : IsSubject r) (hs' : IsSubject r')
    (hkind : r'.kind.kind = r.kind.kind) (hname : r'.name = r.name)
    (hns : r'.namespaceName = r.namespaceName) (hne : r.namespaceName ≠ "")
    (hv : bodyObject r.object = .ok v) (hw : bodyObject r'.object = .ok w)
    (hd : decoded r = .ok s) (hd' : decoded r' = .ok s') (h : LooksAlike (kindOf r) v w) :
    s = s' := by
  have hread := readSnapshot_of_decoded hs hv hd
  have hread' := readSnapshot_of_decoded hs' hw hd'
  have hkind' : kindOf r' = kindOf r := by rw [kindOf, kindOf, hkind]
  have htarget : requestedTarget r' = requestedTarget r := by
    rw [requestedTarget, requestedTarget, hname, hns]
  rw [hkind', htarget] at hread'
  exact readSnapshot_of_looksAlike (kindOf_ne hs) hne hread hread' h

/-- Nothing but the kind, the requested name and namespace and the visible parts of its object decides on
a request. The policy that applies is that of the requested namespace, whatever the object says of its
own. -/
theorem handle_of_looksAlike (g : Generation) (hs : IsSubject r) (hs' : IsSubject r')
    (hkind : r'.kind.kind = r.kind.kind) (hname : r'.name = r.name)
    (hns : r'.namespaceName = r.namespaceName) (hne : r.namespaceName ≠ "")
    (hv : bodyObject r.object = .ok v) (hw : bodyObject r'.object = .ok w)
    (hd : decoded r = .ok s) (hd' : decoded r' = .ok s') (h : LooksAlike (kindOf r) v w) :
    (∃ answer answer', (handle g r).result = .ok answer ∧ (handle g r').result = .ok answer' ∧
      answer.isAllowed = answer'.isAllowed ∧ answer.status? = answer'.status?) ∧
      s.target.namespaceName = r.namespaceName ∧ s'.target.namespaceName = r.namespaceName := by
  obtain rfl := decoded_of_looksAlike hs hs' hkind hname hns hne hv hw hd hd' h
  have htarget : s.target.namespaceName = r.namespaceName := by
    rw [readSnapshot_visible_target (kindOf_ne hs) hne (readSnapshot_of_decoded hs hv hd)]
    rfl
  refine ⟨⟨_, _, handle_of_decoded hs hd, handle_of_decoded hs' hd', rfl, rfl⟩, htarget, htarget⟩

/-- A pod that claims to be in another namespace and holds much that no policy looks at. -/
def disguisedPod : Value :=
  record
    [("metadata", record [("name", .text "web"), ("namespace", .text "kube-system"),
        ("labels", record [("app", .text "web")])]),
      ("spec", record [("nodeName", .text "node-1"),
        ("containers", .list [record [("name", .text "app"), ("image", .text "web:1"),
          ("resources", record [("limits", record [("gpu", .text "1")])])]])])]

/-- An update with the pod by another user, tried out only. -/
def disguisedRequest : Request :=
  { requestFor shopRequest .pod disguisedPod with
    uid := "2"
    operation := "UPDATE"
    userInfo := ⟨"system:admin", "", []⟩
    dryRun? := some true }

theorem looksAlike_disguisedPod :
    LooksAlike .pod (podOf [("name", .text "web")] bareSpec) disguisedPod := by
  refine ⟨rfl, rfl, fun _ => rfl, fun h => ?_⟩
  cases h

/-- The disguised pod is answered as the plain one. -/
theorem handle_of_looksAlike_disguised :
    ∃ answer answer',
      (handle .empty (requestFor shopRequest .pod (podOf [("name", .text "web")] bareSpec))).result =
          .ok answer ∧
        (handle .empty disguisedRequest).result = .ok answer' ∧
        answer.isAllowed = answer'.isAllowed ∧ answer.status? = answer'.status? := by
  have hs : IsSubject (requestFor shopRequest .pod (podOf [("name", .text "web")] bareSpec)) := by
    constructor <;> decide
  have hs' : IsSubject disguisedRequest := by
    constructor <;> decide
  exact (handle_of_looksAlike .empty hs hs' rfl rfl rfl (by decide) rfl rfl rfl rfl
    looksAlike_disguisedPod).1

end CeilingGate.Admission
