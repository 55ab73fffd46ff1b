import GraphileWorker.Migrations.SharedLines

/-! # The files `m000001.sql` to `m000005.sql`

The statements as `include_migrations!` finds them in the files: between the lines that
separate them, without the lines of its own marks, and trimmed.
-/
namespace GraphileWorker.Migrations.Scripts

set_option maxRecDepth 4096

def m000001 : Script where
  stmts := [["create table @.job_queues (
    queue_name text not null primary key,
    job_count int not null,
    locked_at timestamptz,
    locked_by text
);"],
 ["alter table @.job_queues enable row level security;"],
 ["create table @.jobs (
    id bigserial primary key,
    queue_name text not null,
    task_identifier text not null,
    payload json default '\x7b\x7d'::json not null,
    priority int default 0 not null,
    run_at timestamptz default now() not null,
    attempts int default 0 not null,
    max_attempts int default 25 not null,
    last_error text,
    created_at timestamp with time zone not null default now(),
    updated_at timestamp with time zone not null default now()
);"],
 ["alter table @.jobs enable row level security;"],
 ["create index on @.jobs (priority, run_at, id);"],
 ["create function @.tg__update_timestamp() returns trigger as $$
    begin
        new.updated_at = greatest(now(), old.updated_at + interval '1 millisecond');
        return new;
    end;
$$ language plpgsql;"],
 ["create trigger _100_timestamps before update on @.jobs for each row execute procedure @.tg__update_timestamp();"],
 ["create function @.jobs__decrease_job_queue_count() returns trigger as $$
    declare
        v_new_job_count int;
    begin
        update @.job_queues
            set job_count = job_queues.job_count - 1
            where queue_name = old.queue_name
            returning job_count into v_new_job_count;

        if v_new_job_count <= 0 then
            delete from @.job_queues where queue_name = old.queue_name and job_count <= 0;
        end if;

        return old;
    end;
$$ language plpgsql;"],
 ["create function @.jobs__increase_job_queue_count() returns trigger as $$
    begin
        insert into @.job_queues(queue_name, job_count)
            values(new.queue_name, 1)
            on conflict (queue_name)
            do update
            set job_count = job_queues.job_count + 1;

        return new;
    end;
    $$ language plpgsql;"],
 ["create trigger _500_increase_job_queue_count after insert on @.jobs for each row execute procedure @.jobs__increase_job_queue_count();"],
 ["create trigger _500_decrease_job_queue_count after delete on @.jobs for each row execute procedure @.jobs__decrease_job_queue_count();"],
 ["create trigger _500_increase_job_queue_count_update after update of queue_name on @.jobs for each row execute procedure @.jobs__increase_job_queue_count();"],
 ["create trigger _500_decrease_job_queue_count_update after update of queue_name on @.jobs for each row execute procedure @.jobs__decrease_job_queue_count();"],
 ["create function @.tg_jobs__notify_new_jobs() returns trigger as $$
begin
    perform pg_notify('jobs:insert', '');
    return new;
end;
$$ language plpgsql;"],
 ["create trigger _900_notify_worker after insert on @.jobs for each statement execute procedure @.tg_jobs__notify_new_jobs();"],
 ["create function @.add_job(
    identifier text,
    payload json = '\x7b\x7d',
    queue_name text = null, -- was gen_random_uuid(), but later removed dependency
    run_at timestamptz = now(),
    max_attempts int = 25
) returns @.jobs as $$
    insert into @.jobs(task_identifier, payload, queue_name, run_at, max_attempts) values(identifier, payload, queue_name, run_at, max_attempts) returning *;
$$ language sql;"],
 ["create function @.get_job(worker_id text, task_identifiers text[] = null, job_expiry interval = interval '4 hours') returns @.jobs as $$
declare
    v_job_id bigint;
    v_queue_name text;
    v_default_job_max_attempts text = '25';
    v_row @.jobs;"] ++ checkWorkerId ++ ["    select job_queues.queue_name, jobs.id into v_queue_name, v_job_id
        from @.jobs
        inner join @.job_queues using (queue_name)
        where (locked_at is null or locked_at < (now() - job_expiry))
        and run_at <= now()"] ++ selectQueue ++ ["            locked_at = now()
        where job_queues.queue_name = v_queue_name;

    update @.jobs
        set attempts = attempts + 1
        where id = v_job_id
        returning * into v_row;

    return v_row;
end;
$$ language plpgsql;"],
 ["create function @.complete_job(worker_id text, job_id bigint) returns @.jobs as $$
declare
    v_row @.jobs;
begin
    delete from @.jobs
        where id = job_id
        returning * into v_row;
"] ++ queueUnlocked ++ ["$$ language plpgsql;"],
 ["create function @.fail_job(worker_id text, job_id bigint, error_message text) returns @.jobs as $$
declare
    v_row @.jobs;
begin
    update @.jobs
        set
            last_error = error_message,
            run_at = greatest(now(), run_at) + (exp(least(attempts, 10))::text || ' seconds')::interval
        where id = job_id
        returning * into v_row;
"] ++ queueUnlocked ++ ["$$ language plpgsql;"]]

def m000002 : Script where
  stmts := [["alter table @.jobs add column key text unique check(length(key) > 0);"],
 ["alter table @.jobs add locked_at timestamptz;"],
 ["alter table @.jobs add locked_by text;"],
 ["update @.jobs
    set locked_at = q.locked_at, locked_by = q.locked_by
    from @.job_queues q
    where q.queue_name = jobs.queue_name
    and q.locked_at is not null;"],
 ["drop function if exists @.add_job(
    identifier text,
    payload json,
    queue_name text,
    run_at timestamptz,
    max_attempts int
);"],
 ["create function @.add_job("] ++ addJobUpsert ++ ["            )
            on conflict (key) do update set
                -- update all job details other than queue_name, which we want to keep
                -- the same unless explicitly provided
                task_identifier=excluded.task_identifier,
                payload=excluded.payload,
                queue_name=coalesce(add_job.queue_name, jobs.queue_name),
                max_attempts=excluded.max_attempts,
                run_at=excluded.run_at,"] ++ upsertFallback ++ addJobPlain,
 ["create function @.remove_job(
    job_key text
) returns @.jobs as $$
    delete from @.jobs
        where key = job_key
        and locked_at is null
    returning *;
$$ language sql strict volatile;"],
 ["create or replace function @.get_job(worker_id text, task_identifiers text[] = null, job_expiry interval = interval '4 hours') returns @.jobs as $$
declare
    v_job_id bigint;
    v_queue_name text;
    v_row @.jobs;
    v_now timestamptz = now();"] ++ checkWorkerId ++ ["    select job_queues.queue_name, jobs.id into v_queue_name, v_job_id
        from @.jobs
        inner join @.job_queues using (queue_name)
        where (job_queues.locked_at is null or job_queues.locked_at < (v_now - job_expiry))
        and run_at <= v_now"] ++ selectQueue ++ ["            locked_at = v_now
        where job_queues.queue_name = v_queue_name;"] ++ claimRow ++ ["
    return v_row;
end;
$$ language plpgsql volatile;"],
 failJobUpdate ++ queueUnlocked ++ ["$$ language plpgsql volatile strict;"]]

def m000003 : Script where
  stmts := [["alter table @.jobs alter column queue_name drop not null;"],
 ["create or replace function @.add_job("] ++ addJobUpsert ++ upsertColumns ++ ["                run_at=excluded.run_at,"] ++ upsertFallback ++ addJobPlain,
 ["create or replace function @.get_job(worker_id text, task_identifiers text[] = null, job_expiry interval = interval '4 hours') returns @.jobs as $$"] ++ selectJob ++ lockSelected ++ ["            set
                locked_by = worker_id,
                locked_at = v_now
            where job_queues.queue_name = v_queue_name;
    end if;"] ++ claimRow ++ ["
    return v_row;
end;
$$ language plpgsql volatile;"],
 failJobUpdate ++ queueReleased ++ ["$$ language plpgsql volatile strict;"],
 ["create or replace function @.complete_job(worker_id text, job_id bigint) returns @.jobs as $$
declare
    v_row @.jobs;
begin
    delete from @.jobs
        where id = job_id
        returning * into v_row;
"] ++ queueReleased ++ ["$$ language plpgsql;"],
 ["drop trigger _500_increase_job_queue_count on @.jobs;"],
 ["drop trigger _500_decrease_job_queue_count on @.jobs;"],
 ["drop trigger _500_increase_job_queue_count_update on @.jobs;"],
 ["drop trigger _500_decrease_job_queue_count_update on @.jobs;"],
 ["create trigger _500_increase_job_queue_count after insert on @.jobs for each row when (NEW.queue_name is not null) execute procedure @.jobs__increase_job_queue_count();"],
 ["create trigger _500_decrease_job_queue_count after delete on @.jobs for each row when (OLD.queue_name is not null) execute procedure @.jobs__decrease_job_queue_count();"],
 ["create trigger _500_increase_job_queue_count_update after update of queue_name on @.jobs for each row when (NEW.queue_name is distinct from OLD.queue_name AND NEW.queue_name is not null) execute procedure @.jobs__increase_job_queue_count();"],
 ["create trigger _500_decrease_job_queue_count_update after update of queue_name on @.jobs for each row when (NEW.queue_name is distinct from OLD.queue_name AND OLD.queue_name is not null) execute procedure @.jobs__decrease_job_queue_count();"]]

def m000004 : Script where
  stmts := [["drop function @.add_job(text, json, text, timestamptz, int, text);"],
 addJobParameters ++ ["    max_attempts int = null,
    job_key text = null,
    priority int = null"] ++ addJobChecks ++ ["        raise exception 'Job maximum attempts must be at least 1' using errcode = 'GWBMA';
    end if;

    if job_key is not null then
        -- Upsert job
        insert into @.jobs (
            task_identifier,
            payload,
            queue_name,
            run_at,
            max_attempts,
            key,
            priority"] ++ keyedValues ++ ["                coalesce(priority, 0)"] ++ upsertColumns ++ ["                run_at=excluded.run_at,
                priority=excluded.priority,"] ++ upsertFallback ++ insertJobHead ++ ["        priority"] ++ plainValues ++ ["            coalesce(priority, 0)
        )
        returning *
        into v_job;

    return v_job;
end;
$$ language plpgsql volatile;"],
 ["create function @.complete_jobs(
    job_ids bigint[]
) returns setof @.jobs as $$
    delete from @.jobs"] ++ idleById,
 ["create function @.permanently_fail_jobs(
    job_ids bigint[],
    error_message text = null
) returns setof @.jobs as $$
    update @.jobs
        set
            last_error = coalesce(error_message, 'Manually marked as failed'),
            attempts = max_attempts"] ++ idleById,
 ["create function @.reschedule_jobs(
    job_ids bigint[],
    run_at timestamptz = null,
    priority int = null,
    attempts int = null,
    max_attempts int = null
) returns setof @.jobs as $$"] ++ rescheduleBody ++ ["            max_attempts = coalesce(reschedule_jobs.max_attempts, jobs.max_attempts)"] ++ idleById]

def m000005 : Script where
  stmts := [["alter table @.jobs add column revision int default 0 not null;"],
 ["alter table @.jobs add column flags jsonb default null;"],
 ["drop function @.add_job(text, json, text, timestamptz, int, text, int);"],
 addJobParameters ++ ["    max_attempts int = null,
    job_key text = null,
    priority int = null,
    flags text[] = null"] ++ addJobChecks ++ ["        raise exception 'Job maximum attempts must be at least 1' using errcode = 'GWBMA';
    end if;

    if job_key is not null then
        -- Upsert job"] ++ jobValues ++ ["                  select jsonb_object_agg(flag, true)
                  from unnest(flags) as item(flag)
                )"] ++ upsertColumns ++ ["                run_at=excluded.run_at,
                priority=excluded.priority,
                revision=jobs.revision + 1,
                flags=excluded.flags,"] ++ upsertFallback ++ insertJobHead ++ ["        priority,
        flags
    )
    values(
        identifier,
        coalesce(payload, '\x7b\x7d'::json),
        queue_name,
        coalesce(run_at, now()),
        coalesce(max_attempts, 25),
        job_key,
        coalesce(priority, 0),
        (
            select jsonb_object_agg(flag, true)
            from unnest(flags) as item(flag)
        )
    )
    returning *
    into v_job;

    return v_job;
end;
$$ language plpgsql volatile;"],
 ["drop function @.get_job(text, text[], interval);"],
 ["create function @.get_job(
    worker_id text,
    task_identifiers text[] = null,
    job_expiry interval = interval '4 hours',
    forbidden_flags text[] = null
) returns @.jobs as $$"] ++ selectJob ++ ["        and (forbidden_flags is null or (flags ?| forbidden_flags) is not true)"] ++ lockSelected ++ ["        set
            locked_by = worker_id,
            locked_at = v_now
        where job_queues.queue_name = v_queue_name;
    end if;"] ++ claimRow ++ ["    return v_row;
end;
$$ language plpgsql volatile;"]]

end GraphileWorker.Migrations.Scripts
