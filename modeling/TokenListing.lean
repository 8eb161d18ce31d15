import TokenListing.Main
import TokenListing.Session
import TokenListing.Text.Pattern.Atom
import TokenListing.Proofs.Session.Words
import TokenListing.Proofs.Tokenizer.Exhaustion
import TokenListing.Proofs.Tokenizer.Restart
import TokenListing.Proofs.Tokenizer.Rows
import TokenListing.Proofs.Tokenizer.Iteration
import TokenListing.Proofs.Tokenizer.Interleaving
import TokenListing.Proofs.Tokenizer.TooLarge
import TokenListing.Proofs.Tokenizer.Spelling
import TokenListing.Proofs.Grammar.Concat
import TokenListing.Proofs.Tokenizer.Concat
import TokenListing.Proofs.Grammar.Report
import TokenListing.Proofs.Tokenizer.Growth
import TokenListing.Proofs.Tokenizer.Replacement
import TokenListing.Proofs.Tokenizer.Report
import TokenListing.Proofs.Text.Numerals
import TokenListing.Proofs.Json.Reading
import TokenListing.Proofs.Json.RoundTrip
import TokenListing.Proofs.Listing
import TokenListing.Proofs.Reader.Moves
import TokenListing.Proofs.Reader.Operations
import TokenListing.Proofs.Tokenizer.Takes
import TokenListing.Proofs.Tokenizer.Integers
import TokenListing.Proofs.Tokenizer.Lookahead
import TokenListing.Proofs.Tokenizer.Lines
import TokenListing.Proofs.Tokenizer.Rounds
import TokenListing.Proofs.Tokenizer.Progress
import TokenListing.Proofs.Command.Ending
import TokenListing.Proofs.Command.Arguments
import TokenListing.Proofs.Command.Log
import TokenListing.Proofs.Vocabulary.Queries
import TokenListing.Proofs.Command.Location
import TokenListing.Proofs.Tokenizer.Skipping
import TokenListing.Proofs.Reader.BlockComment
