import CustomerDedupe.Rest.Client

/-!
# Conversations

A network whose answers come from somewhere else, one after another. An action that runs out of
answers leaves its first unanswered message in the conversation; once that has been answered,
the action is run again from the beginning with one more answer. What an action does depends on
the answers alone, so every run begins like the one before it.
-/

namespace CustomerDedupe.Rest

/-- The answers received so far that are still to be used, and the first message without an
answer. -/
structure Conversation where
  answers : List Delivery
  asked : Option Message

namespace Conversation

/-- A conversation with some answers. -/
def ofAnswers (answers : List Delivery) : Conversation :=
  ⟨answers, none⟩

/-- The network that hands out the answers. After an unanswered message nothing is delivered. -/
def network : Network Conversation := fun m c =>
  match c.asked, c.answers with
  | some _, _ => (.lost, c)
  | none, d :: rest => (d, ⟨rest, none⟩)
  | none, [] => (.lost, ⟨[], some m⟩)

end Conversation

end CustomerDedupe.Rest
