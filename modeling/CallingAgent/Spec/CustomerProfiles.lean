import CallingAgent.Impl.Directory

/-!
# What is known of a customer

A tenant submits values for the fields of a customer, whom it names by the phone
number or by the id. What is known of the customer is, for each field, the last
value submitted.
-/

namespace CallingAgent.Spec.CustomerProfiles

open CallingAgent.Impl

/-- The profile fields of a customer. -/
inductive Field
  | name
  | email
  | languageCode
  | timezone
  | countryCode
  | notes
  | externalId
  deriving DecidableEq

def field (customer : Customer) : Field → Option String
  | .name => customer.name
  | .email => customer.email
  | .languageCode => customer.languageCode
  | .timezone => customer.timezone
  | .countryCode => customer.countryCode
  | .notes => customer.notes
  | .externalId => customer.externalId

/-- Values, by the tenant of the customer, and their phone number or id. -/
inductive Submission
  | upsert (clientId : Int) (phone : String) (values : Field → Option String)
  | update (clientId : Int) (customerId : String) (values : Field → Option String)

def Submission.clientId : Submission → Int
  | .upsert clientId _ _ => clientId
  | .update clientId _ _ => clientId

def Submission.values : Submission → Field → Option String
  | .upsert _ _ values => values
  | .update _ _ values => values

/-- The submission names this customer. -/
def Submission.concerns (customer : Customer) : Submission → Bool
  | .upsert clientId phone _ => customer.clientId = clientId && customer.phone = phone
  | .update clientId customerId _ => customer.clientId = clientId && customer.id = customerId

/-- The last non-null value submitted for a field of the customer. -/
def lastValue (submissions : List Submission) (customer : Customer) (f : Field) : Option String :=
  ((submissions.filter (·.concerns customer)).filterMap (·.values f)).getLast?

theorem lastValue_concat (submissions : List Submission) (s : Submission) (customer : Customer) (f : Field) :
    lastValue (submissions ++ [s]) customer f =
      if s.concerns customer then (s.values f).or (lastValue submissions customer f)
      else lastValue submissions customer f := by
  rw [lastValue, lastValue, List.filter_append, List.filterMap_append, List.filter_singleton]
  cases h : s.concerns customer with
  | false => simp
  | true => cases hv : s.values f <;> simp [hv]

/-- Only the phone number, the id and the tenant of the customer matter. -/
theorem concerns_congr {customer customer' : Customer} (hid : customer'.id = customer.id)
    (hclient : customer'.clientId = customer.clientId) (hphone : customer'.phone = customer.phone) (s : Submission) :
    s.concerns customer' = s.concerns customer := by
  cases s <;> simp only [Submission.concerns, hid, hclient, hphone]

theorem lastValue_congr {customer customer' : Customer} (hid : customer'.id = customer.id)
    (hclient : customer'.clientId = customer.clientId) (hphone : customer'.phone = customer.phone)
    (submissions : List Submission) (f : Field) :
    lastValue submissions customer' f = lastValue submissions customer f := by
  unfold lastValue
  rw [List.filter_congr fun s _ => concerns_congr hid hclient hphone s]

/-- A customer whom no submission has named yet. -/
theorem lastValue_of_new {submissions : List Submission} {customer : Customer}
    (h : ∀ s ∈ submissions, s.concerns customer = false) (f : Field) : lastValue submissions customer f = none := by
  have hnil : submissions.filter (·.concerns customer) = [] := by simpa [List.filter_eq_nil_iff] using h
  rw [lastValue, hnil]
  rfl

end CallingAgent.Spec.CustomerProfiles
