import ToolAgent.Batch.Alone
import ToolAgent.Client.Replay
import ToolAgent.Main
import ToolAgent.Proofs.Course
import ToolAgent.Proofs.Memory
import ToolAgent.Proofs.Turn
import ToolAgent.Proofs.Transcript
import ToolAgent.Proofs.Batch
import ToolAgent.Proofs.Pairing
import ToolAgent.Proofs.Conversation
import ToolAgent.Proofs.Conversation.Answered
import ToolAgent.Proofs.Reflection
import ToolAgent.Proofs.Conversation.Requests
import ToolAgent.Proofs.Batch.History
import ToolAgent.Proofs.Batch.Alone
import ToolAgent.Proofs.Batch.Cancelled
import ToolAgent.Proofs.Outcome
import ToolAgent.Proofs.Kinds
import ToolAgent.Proofs.Turn.Stages
import ToolAgent.Background
import ToolAgent.Proofs.Background.Order
import ToolAgent.Proofs.Background.Outbox
import ToolAgent.Proofs.Background.Progress
import ToolAgent.Proofs.Background.Serial
import ToolAgent.Proofs.Turn.Breakdown
import ToolAgent.Proofs.Background.Delivery
import ToolAgent.Proofs.Conversation.Pictures
import ToolAgent.Proofs.Json.Shown
import ToolAgent.Proofs.Json.Written
import ToolAgent.Proofs.Json.Decoding
import ToolAgent.Proofs.Message.Codec
import ToolAgent.Proofs.Archive
import ToolAgent.Proofs.Conversation.Widened
import ToolAgent.Turn.Feed
import ToolAgent.Proofs.Turn.Moments
import ToolAgent.Proofs.Turn.Records
import ToolAgent.Proofs.Turn.Cancelled
import ToolAgent.Proofs.Client.Parrot
import ToolAgent.Proofs.Client.Anonymous
import ToolAgent.Proofs.Console
import ToolAgent.Proofs.Turn.Answers
import ToolAgent.Proofs.Conversation.Answers
import ToolAgent.Proofs.Client.Replay
import ToolAgent.Proofs.Turn.Usages
import ToolAgent.Proofs.Blueprint
import ToolAgent.Proofs.Client.Echo
import ToolAgent.Proofs.Summary
import ToolAgent.Proofs.Memory.Search
import ToolAgent.Proofs.Event.Codec
import ToolAgent.Proofs.Json.Accepted
import ToolAgent.Proofs.Message.Accepted
import ToolAgent.Proofs.SavedState
import ToolAgent.Proofs.Batch.Fate
import ToolAgent.Proofs.Batch.Audited
import ToolAgent.Proofs.Turn.Handoff
import ToolAgent.Proofs.Memory.Reminders
import ToolAgent.Proofs.Memory.Kept
import ToolAgent.Proofs.Memory.Rephrased
import ToolAgent.Proofs.Setting.Overlaid
import ToolAgent.Proofs.Settings.Ranks
