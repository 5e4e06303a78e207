import FkServer.Library.Runs
import FkServer.Library.Buckets
import FkServer.Library.Shares
import FkServer.Library.Rotation
import FkServer.Library.Ledger
import FkServer.Library.RedisHash
import FkServer.Library.ParentForest
import FkServer.Library.BlockCover
import FkServer.Common.MaajanTileDealer
import FkServer.Common.CardDealer
import FkServer.Club.ClubPartner
import FkServer.Club.BaseClub
import FkServer.Club.TeamAggregates
import FkServer.Club.Transfer
import FkServer.Club.Handlers
import FkServer.Club.PartnerTree
import FkServer.Club.BlockGroups
import FkServer.Club.Leaving
import FkServer.MaajanXuezhan.Define
import FkServer.MaajanXuezhan.Rule
import FkServer.MaajanXuezhan.HandCover
import FkServer.MaajanXuezhan.ReadyTiles
import FkServer.MaajanXuezhan.HuTypes
import FkServer.MaajanXuezhan.Table
import FkServer.MaajanXuezhan.Settlement
import FkServer.MaajanXuezhan.Handlers
import FkServer.MaajanXuezhan.Game
import FkServer.MaajanXuezhan.View
import FkServer.MaajanXuezhan.Offers
import FkServer.MaajanXuezhan.Exchange
import FkServer.MaajanXuezhan.Refinement
import FkServer.MaajanXuezhan.Deal
import FkServer.MaajanXuezhan.Wins
import FkServer.MaajanXuezhan.Turn
import FkServer.MaajanXuezhan.Conservation
import FkServer.MaajanXuezhan.Charges
import FkServer.MaajanXuezhan.NextDealer
import FkServer.Land.Table
import FkServer.Land.Compete
import FkServer.Land.Progress
import FkServer.Climbing.Cards
import FkServer.Land.Discard
import FkServer.Pdk.Discard
import FkServer.PdkSc.Discard
import FkServer.Climbing.Conservation
import FkServer.Library.LuaSort
import FkServer.Ox.Logic
import FkServer.Ox.Split
import FkServer.MaajanXuezhan.WinningJudges
import FkServer.ChangpaiZigong.Define
import FkServer.ChangpaiZigong.Rule
import FkServer.ChangpaiZigong.WinningJudges
import FkServer.ChangpaiZigong.Table
import FkServer.ChangpaiZigong.Handlers
import FkServer.ChangpaiZigong.Offers
import FkServer.ChangpaiZigong.Invariant
import FkServer.ChangpaiZigong.Discards
import FkServer.Lobby.Tax
import FkServer.Lobby.Seats
import FkServer.Club.CommissionExchange
import FkServer.Library.PlainRedis
import FkServer.Service.CacheRedisd
import FkServer.Service.CacheTransparency
import FkServer.Library.Census
import FkServer.Lobby.Online
import FkServer.Lobby.OnlineCounters
import FkServer.Library.WaitFor
import FkServer.Service.Lock
import FkServer.Service.KeyLocks
import FkServer.Library.Tickets
import FkServer.Service.Mutexd
import FkServer.Library.Cutter
import FkServer.Gate.Framing
import FkServer.Common.Timermgr
import FkServer.Library.PathTree
import FkServer.Service.ChannelTree
import FkServer.Service.Channeld
import FkServer.Queue.Queued
import FkServer.Gate.Slot
import FkServer.Library.Shards
import FkServer.Service.Redisopt
import FkServer.Service.RedisoptRuns
import FkServer.Lobby.OnlineRequests
import FkServer.ChangpaiZigong.Pairing
import FkServer.MaajanXuezhan.Decompositions
import FkServer.Lobby.PrizePool
import FkServer.Zhajinhua.CardsUtil
import FkServer.Zhajinhua.Showdown
import FkServer.ChangpaiZigong.Settlement
import FkServer.Library.WildcardCover
import FkServer.MaajanZigong.IsHu
import FkServer.MaajanZigong.Hands
import FkServer.MaajanZigong.CaseSplit
import FkServer.MaajanZigong.WildcardHands
import FkServer.MaajanNanchong.HuTypes
import FkServer.MaajanNanchong.Rule
import FkServer.MaajanNanchong.Table
import FkServer.MaajanNanchong.Handlers
import FkServer.MaajanNanchong.Hands
import FkServer.MaajanNanchong.Rounds
import FkServer.MaajanNanchong.Deal
import FkServer.MaajanNanchong.Turn
import FkServer.MaajanNanchong.LayOut
import FkServer.MaajanNanchong.Announced
import FkServer.MaajanNanchong.AnnouncedRuns
import FkServer.Climbing.Settlement
import FkServer.Pdk.RuleOptions
import FkServer.Ox.Classification
import FkServer.Ox.Comparison
import FkServer.Climbing.Grammar
import FkServer.Land.Grammar
import FkServer.PdkSc.Wildcards
import FkServer.Pdk.Grammar
import FkServer.Climbing.Seek
import FkServer.Pdk.Seek
import FkServer.Land.Seek
import FkServer.Land.AutoDiscard
import FkServer.Club.TeamBranches
import FkServer.Common.ArrangeTiles
import FkServer.Club.TeamLayers
import FkServer.Lobby.BranchCommission
import FkServer.Lobby.PrivateFee
import FkServer.MaajanXuezhan.TypeOrder
import FkServer.MaajanZigong.SevenPairs
import FkServer.MaajanNanchong.LayOutSearch
import FkServer.MaajanNanchong.LayOutCheck
import FkServer.MaajanZigong.GouCount
import FkServer.MaajanZigong.GouTrials
import FkServer.MaajanZigong.GouLoops
import FkServer.MaajanZigong.GouMaximum
import FkServer.Library.LuaPattern
import FkServer.Redisorm.Meta
import FkServer.Redisorm.Redismetadata
import FkServer.Redisorm.Lookups
import FkServer.Redisorm.Codec
import FkServer.Redisorm.RoundTrip
import FkServer.Library.RunningTotal
import FkServer.MaajanNanchong.Settlement
import FkServer.MaajanNanchong.PairPayments
import FkServer.Skynet.Timer
import FkServer.Skynet.MessageQueue
import FkServer.Skynet.Scheduler
import FkServer.Skynet.SchedulerInvariant
import FkServer.Skynet.SchedulerRuns
import FkServer.Library.LittleEndian
import FkServer.Lualib.WriteBlock
import FkServer.Lualib.Seri
import FkServer.Lualib.SeriRoundTrip
import FkServer.Zhajinhua.BettingBooks
import FkServer.Zhajinhua.BettingTurns
