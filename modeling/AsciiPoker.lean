import AsciiPoker.Library.Cyclic
import AsciiPoker.Library.Failure
import AsciiPoker.Library.Framing
import AsciiPoker.Library.KeyMap
import AsciiPoker.Library.Layers
import AsciiPoker.Library.Termination
import AsciiPoker.Library.Transition
import AsciiPoker.Library.Word32
import AsciiPoker.Common.Card
import AsciiPoker.Common.SidePots
import AsciiPoker.Common.SidePotLayers
import AsciiPoker.Common.HandEvaluator
import AsciiPoker.Common.Protocol
import AsciiPoker.Common.Json
import AsciiPoker.Common.Codec
import AsciiPoker.Common.ServerCodec
import AsciiPoker.Common.Encoding
import AsciiPoker.Common.RoundTrip
import AsciiPoker.Common.Decoding
import AsciiPoker.Common.PacketFraming
import AsciiPoker.Common.Auth
import AsciiPoker.Server.GameSession.State
import AsciiPoker.Server.GameSession.Operations
import AsciiPoker.Server.GameSession.Machine
import AsciiPoker.Server.GameSession.Frame
import AsciiPoker.Server.GameSession.Step
import AsciiPoker.Server.GameSession.Hand
import AsciiPoker.Server.GameSession.Settlement
import AsciiPoker.Server.GameSession.Seated
import AsciiPoker.Server.GameSession.Places
import AsciiPoker.Server.GameSession.Stages
import AsciiPoker.Server.GameSession.Cards
import AsciiPoker.Server.GameSession.Alike
import AsciiPoker.Server.GameSession.HiddenCards
import AsciiPoker.Server.GameSession.Progress
import AsciiPoker.Server.GameSession.DeckSize
import AsciiPoker.Server.GameSession.Ledger
import AsciiPoker.Server.GameSession.Conservation
import AsciiPoker.Server.GameSession.TableStakes
import AsciiPoker.Server.GameSession.Bets
import AsciiPoker.Server.GameSession.Turns
import AsciiPoker.Server.GameSession.GameOver
import AsciiPoker.Server.GameSession.Effort
import AsciiPoker.Server.GameSession.HandEnds
import AsciiPoker.Server.Storage.PasswordHash
import AsciiPoker.Server.Storage.UserRepository
import AsciiPoker.Server.Lobby.Room
import AsciiPoker.Server.Lobby.Seating
import AsciiPoker.Server.Lobby.Lobby
import AsciiPoker.Server.Lobby.Representation
import AsciiPoker.Server.Lobby.Consistency
import AsciiPoker.Server.Lobby.Joining
import AsciiPoker.Server.Lobby.Progress
import AsciiPoker.Server.Messaging.LobbyMessageProcessor
import AsciiPoker.Server.Messaging.Accounts
import AsciiPoker.Server.Messaging.Handshake
import AsciiPoker.Server.Messaging.Logins
import AsciiPoker.Server.Messaging.Online
import AsciiPoker.Server.Network.Session
import AsciiPoker.Server.GameSession.Balances
import AsciiPoker.Server.GameSession.Departures
import AsciiPoker.Server.GameSession.FirstHand
import AsciiPoker.Server.Lobby.Admission
import AsciiPoker.Server.GameSession.Offers
import AsciiPoker.Library.Outbox
import AsciiPoker.Server.Network.SessionIo
import AsciiPoker.Server.Messaging.Registries
import AsciiPoker.Server.Messaging.Requests
import AsciiPoker.Library.Mailbox
import AsciiPoker.Server.GameSession.Script
import AsciiPoker.Server.Messaging.Authentication
import AsciiPoker.Server.Lobby.Views
import AsciiPoker.Server.Messaging.Views
import AsciiPoker.Server.GameSession.Shown
import AsciiPoker.Common.Dump
import AsciiPoker.Server.Messaging.Limits
import AsciiPoker.Client.Isolation
import AsciiPoker.Client.PokerUI
import AsciiPoker.Server.GameSession.Asking
import AsciiPoker.Composition.Play
import AsciiPoker.Composition.Questions
import AsciiPoker.Composition.StaleTurn
import AsciiPoker.Library.Durable
import AsciiPoker.Server.Storage.Database
import AsciiPoker.Server.Storage.Migration
import AsciiPoker.Common.SidePotForm
import AsciiPoker.Library.Combinations
import AsciiPoker.Common.HandBest
import AsciiPoker.Common.PokerRanking
import AsciiPoker.Common.HandRanking
import AsciiPoker.Library.Maxima
import AsciiPoker.Server.GameSession.Prizes
import AsciiPoker.Server.GameSession.MinimumRaise
import AsciiPoker.Server.GameSession.EmptyStacks
import AsciiPoker.Server.GameSession.FoldWin
import AsciiPoker.Library.Since
import AsciiPoker.Server.GameSession.Rounds
import AsciiPoker.Server.GameSession.IndexRepair
import AsciiPoker.Server.GameSession.RunOut
import AsciiPoker.Server.GameSession.Rejections
import AsciiPoker.Library.Bytes
import AsciiPoker.Library.Scanning
import AsciiPoker.Server.Storage.RecordFields
import AsciiPoker.Server.Storage.StoredPasswords
import AsciiPoker.Server.Lobby.Exhaustion
import AsciiPoker.Server.Lobby.SmallRooms
import AsciiPoker.Server.Messaging.AccountTable
import AsciiPoker.Server.Messaging.Survival
import AsciiPoker.Library.Sums
import AsciiPoker.Server.GameSession.Backing
import AsciiPoker.Server.Lobby.Credentials
import AsciiPoker.Server.Lobby.Treasury
import AsciiPoker.Server.GameSession.Pointers
import AsciiPoker.Server.Messaging.Pointers
import AsciiPoker.Server.GameSession.Recipients
import AsciiPoker.Server.Lobby.Recipients
import AsciiPoker.Server.Messaging.Recipients
import AsciiPoker.Library.Utf8
import AsciiPoker.Common.Json.Lexer
import AsciiPoker.Common.Json.Parser
import AsciiPoker.Common.Json.Grammar
import AsciiPoker.Common.Json.Strings
import AsciiPoker.Common.Json.Numbers
import AsciiPoker.Common.Json.Tokens
import AsciiPoker.Common.Json.Invariants
import AsciiPoker.Common.Json.Completeness
import AsciiPoker.Common.Json.Soundness
import AsciiPoker.Common.Json.Diagnosis
import AsciiPoker.Server.Messaging.Bodies
import AsciiPoker.Server.Messaging.Answers
import AsciiPoker.Common.Json.Canonical
import AsciiPoker.Common.Json.Texts
import AsciiPoker.Common.Json.Messages
import AsciiPoker.Composition.Delivery
