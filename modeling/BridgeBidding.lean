import BridgeBidding.Context.AceAsking
import BridgeBidding.Hand.Reading
import BridgeBidding.Proofs.Auction.Building
import BridgeBidding.Proofs.Auction.Uncontested
import BridgeBidding.Proofs.Sayc.Uncontested
import BridgeBidding.Proofs.Tree.Flattening
import BridgeBidding.Proofs.Tree.Outcome
import BridgeBidding.Proofs.Tree.Sibling
import BridgeBidding.Records.Conventions
import BridgeBidding.Records.Errors
import BridgeBidding.Settings.Standard
import BridgeBidding.Trainer.Grading
import BridgeBidding.Trainer.Suggesting
import BridgeBidding.Tree.Reading
import BridgeBidding.Value.Json
import BridgeBidding.Proofs.Condition.Report
import BridgeBidding.Proofs.Trainer.Grading
import BridgeBidding.Proofs.Condition.Inference
import BridgeBidding.Proofs.Auction.Dialogue
import BridgeBidding.Proofs.Gerber.Calls
import BridgeBidding.Proofs.Hand.Counting
import BridgeBidding.Proofs.Gerber.Dialogue
import BridgeBidding.Proofs.Auction.Length
import BridgeBidding.Proofs.Condition.Totality
import BridgeBidding.Proofs.Trainer.Suggesting
import BridgeBidding.Proofs.Trainer.BiddingOut
import BridgeBidding.Proofs.Auction.Longest
import BridgeBidding.Proofs.Trainer.RightAnswer
import BridgeBidding.Proofs.Trainer.Turn
import BridgeBidding.Proofs.Convention.Turns
import BridgeBidding.Proofs.Gerber.Legality
import BridgeBidding.Proofs.Convention.Legality
import BridgeBidding.Proofs.Condition.AuctionOnly
import BridgeBidding.Proofs.Tree.Acceptance
import BridgeBidding.Proofs.Convention.Totality
import BridgeBidding.Proofs.Stayman.Calls
import BridgeBidding.Proofs.Stayman.Dialogue
import BridgeBidding.Proofs.Deal.Dealing
import BridgeBidding.Proofs.Convention.Registering
import BridgeBidding.Proofs.Trainer.Starting
import BridgeBidding.Proofs.Trainer.Exercise
import BridgeBidding.Proofs.Auction.Contract
import BridgeBidding.Proofs.Auction.Offer
import BridgeBidding.Proofs.Gerber.Signoff
import BridgeBidding.Proofs.Settings.Layers
import BridgeBidding.Proofs.Tree.Replay
import BridgeBidding.Proofs.Condition.Branches
import BridgeBidding.Proofs.Convention.Trials
import BridgeBidding.Proofs.Settings.Precedence
import BridgeBidding.Proofs.Condition.Opener
import BridgeBidding.Proofs.Hand.Longest
import BridgeBidding.Proofs.Condition.Biddable
import BridgeBidding.Proofs.Sayc.Competing
import BridgeBidding.Proofs.Sayc.Responses
import BridgeBidding.Proofs.Sayc.Openings
import BridgeBidding.Proofs.Condition.Nesting
import BridgeBidding.Proofs.Dont.Shapes
import BridgeBidding.Proofs.Convention.Rebids
import BridgeBidding.Proofs.Bergen.Raises
import BridgeBidding.Proofs.Deal.Constraints
import BridgeBidding.Proofs.Text.Normal
import BridgeBidding.Proofs.Call.Reading
import BridgeBidding.Proofs.Auction.Rereading
import BridgeBidding.Proofs.Condition.Inversion
import BridgeBidding.Proofs.Hand.Evaluation
import BridgeBidding.Proofs.Card.Reading
import BridgeBidding.Proofs.Hand.Reading
import BridgeBidding.Proofs.Hand.Notation
